import DstServer.Lib.LocalTime
import DstServer.Policy.Schedule

/-!
# What the schedule means

The reference for the schedule: every window is expanded on every local day
of the past and of the future.  `openAt` is the union of the resulting
intervals of instants; a skipped local time resolves to the first later
minute that occurs, a repeated one to its first occurrence as a start and to
its last one as an end.  `Zone.Lawful` is what the reference and the code
ask of a time zone.

The second part connects the reference to the library of local times: in a
lawful zone the resolutions are `LocalTime.first` and `LocalTime.last`
(`resolvesStart_iff`, `resolvesEnd_iff`), `resolve_local` computes them
(`resolveLocal_eq`), and the merged windows of a day cover the same instants
as the windows (`openAt_iff_spans`).
-/

namespace DstServer

open Lib Lib.Outcome

/-! ## Time zones -/

/-- The instant has the local time of this minute. -/
def Zone.Occurs (zone : Zone) (minute instant : Int) : Prop :=
  zone.localTime instant = minute * minuteNs

/-- A zone with whole-minute offsets that are piecewise constant: within
seven days there is at most one change, of at most 24 hours.  Resolving a
local minute gives the instants at which it occurs. -/
structure Zone.Lawful (zone : Zone) : Prop where
  piecewise : ∀ a, ∃ t before after, before ≤ after + 1440 ∧ after ≤ before + 1440 ∧
    ∀ x, a ≤ x → x ≤ a + 7 * dayNs → zone.offset x = if x < t then before else after
  single : ∀ minute x, zone.fromLocal minute = .single x → ∀ y, zone.Occurs minute y ↔ y = x
  ambiguous : ∀ minute x y, zone.fromLocal minute = .ambiguous x y →
    ∀ z, zone.Occurs minute z ↔ z = x ∨ z = y
  none : ∀ minute, zone.fromLocal minute = .none → ∀ x, ¬zone.Occurs minute x

/-- The present day and the days around it are within the dates of
`chrono`. -/
def Zone.AwayFromLimits (zone : Zone) (now : Int) : Prop :=
  minDate + 2 ≤ zone.today now ∧ zone.today now + 5 ≤ maxDate

/-! ## The reference -/

/-- A start resolves to the first occurrence of the first minute from it on
that occurs. -/
def Zone.ResolvesStart (zone : Zone) (minute instant : Int) : Prop :=
  ∃ reached, IsLeast { m | minute ≤ m ∧ ∃ x, zone.Occurs m x } reached ∧
    IsLeast { x | zone.Occurs reached x } instant

/-- An end resolves to the last occurrence of the first minute from it on
that occurs. -/
def Zone.ResolvesEnd (zone : Zone) (minute instant : Int) : Prop :=
  ∃ reached, IsLeast { m | minute ≤ m ∧ ∃ x, zone.Occurs m x } reached ∧
    IsGreatest { x | zone.Occurs reached x } instant

/-- The local minute at which a window that starts on the date ends. -/
def DailyWindow.endOn (window : DailyWindow) (date : Int) : Int :=
  if window.startTime.minuteOfDay < window.endTime.minuteOfDay then
    date * 1440 + window.endTime.minuteOfDay
  else (date + 1) * 1440 + window.endTime.minuteOfDay

/-- The instant lies in the interval of some window on some local day. -/
def openAt (zone : Zone) (schedule : List DailyWindow) (instant : Int) : Prop :=
  ∃ window ∈ schedule, ∃ date start finish,
    zone.ResolvesStart (date * 1440 + window.startTime.minuteOfDay) start ∧
    zone.ResolvesEnd (window.endOn date) finish ∧ start ≤ instant ∧ instant < finish

/-- The minute of the day lies in the window. -/
def DailyWindow.covers (window : DailyWindow) (minute : Nat) : Prop :=
  if window.startTime.minuteOfDay < window.endTime.minuteOfDay then
    window.startTime.minuteOfDay ≤ minute ∧ minute < window.endTime.minuteOfDay
  else window.startTime.minuteOfDay ≤ minute ∨ minute < window.endTime.minuteOfDay

/-- The windows cover every minute of the day. -/
def FullDay (schedule : List DailyWindow) : Prop :=
  ∀ minute < 1440, ∃ window ∈ schedule, window.covers minute

/-! ## Local times of a lawful zone -/

section Zone

variable {zone : Zone}

/-- The offset at the beginning of a minute. -/
def Zone.minuteOffset (zone : Zone) (minute : Int) : Int := zone.offset (minute * minuteNs)

theorem Zone.Lawful.regular (h : zone.Lawful) : LocalTime.Regular zone.minuteOffset := by
  constructor
  intro a
  obtain ⟨t, before, after, hb, ha, hoffset⟩ := h.piecewise (a * minuteNs)
  refine ⟨-((-t) / minuteNs), before, after, hb, ha, ?_⟩
  intro u hau hua
  unfold Zone.minuteOffset
  unfold dayNs minuteNs at *
  rw [hoffset (u * 60000000000) (by omega) (by omega)]
  by_cases hu : u * 60000000000 < t
  · rw [if_pos hu, if_pos (by omega)]
  · rw [if_neg hu, if_neg (by omega)]

/-- A local minute occurs only at the beginning of a minute. -/
theorem Zone.occurs_iff {minute instant : Int} : zone.Occurs minute instant ↔
    ∃ u, instant = u * minuteNs ∧ u + zone.minuteOffset u = minute := by
  unfold Zone.Occurs Zone.localTime
  constructor
  · intro h
    have hgrid : instant = (minute - zone.offset instant) * minuteNs := by
      rw [Int.sub_mul]
      omega
    refine ⟨minute - zone.offset instant, hgrid, ?_⟩
    unfold Zone.minuteOffset
    rw [← hgrid]
    omega
  · rintro ⟨u, rfl, rfl⟩
    unfold Zone.minuteOffset
    rw [Int.add_mul]

/-- The resolution of a local start in nanoseconds. -/
noncomputable def Zone.startOf (zone : Zone) (minute : Int) : Int :=
  LocalTime.first zone.minuteOffset minute * minuteNs

/-- The resolution of a local end in nanoseconds. -/
noncomputable def Zone.endOf (zone : Zone) (minute : Int) : Int :=
  LocalTime.last zone.minuteOffset minute * minuteNs

theorem minuteNs_pos : 0 < minuteNs := by decide

theorem mul_minuteNs_le {a b : Int} : a * minuteNs ≤ b * minuteNs ↔ a ≤ b :=
  Int.mul_le_mul_right minuteNs_pos

theorem mul_minuteNs_lt {a b : Int} : a * minuteNs < b * minuteNs ↔ a < b :=
  Int.mul_lt_mul_right minuteNs_pos

theorem Zone.Lawful.startOf_mono (h : zone.Lawful) : Monotone zone.startOf := by
  intro a b hab
  exact mul_minuteNs_le.2 (LocalTime.first_mono h.regular hab)

theorem Zone.Lawful.endOf_mono (h : zone.Lawful) : Monotone zone.endOf := by
  intro a b hab
  exact mul_minuteNs_le.2 (LocalTime.last_mono h.regular hab)

theorem Zone.Lawful.startOf_le_endOf (h : zone.Lawful) (minute : Int) :
    zone.startOf minute ≤ zone.endOf minute :=
  mul_minuteNs_le.2 (LocalTime.first_le_last h.regular minute)

/-- The first minute from a given one on that occurs. -/
theorem Zone.Lawful.isLeast_occurs (h : zone.Lawful) (minute : Int) :
    IsLeast { m | minute ≤ m ∧ ∃ x, zone.Occurs m x }
      (LocalTime.reached zone.minuteOffset minute) := by
  obtain ⟨⟨hle, u, hu⟩, hleast⟩ := LocalTime.isLeast_reached h.regular minute
  refine ⟨⟨hle, u * minuteNs, Zone.occurs_iff.2 ⟨u, rfl, hu⟩⟩, ?_⟩
  rintro m ⟨hm, x, hx⟩
  obtain ⟨v, _, hv⟩ := Zone.occurs_iff.1 hx
  exact hleast ⟨hm, v, hv⟩

theorem Zone.Lawful.isLeast_startOf (h : zone.Lawful) (minute : Int) :
    IsLeast { x | zone.Occurs (LocalTime.reached zone.minuteOffset minute) x }
      (zone.startOf minute) := by
  obtain ⟨hmem, hleast⟩ := LocalTime.isLeast_first h.regular minute
  refine ⟨Zone.occurs_iff.2 ⟨_, rfl, hmem⟩, ?_⟩
  intro x hx
  obtain ⟨u, rfl, hu⟩ := Zone.occurs_iff.1 hx
  exact mul_minuteNs_le.2 (hleast hu)

theorem Zone.Lawful.isGreatest_endOf (h : zone.Lawful) (minute : Int) :
    IsGreatest { x | zone.Occurs (LocalTime.reached zone.minuteOffset minute) x }
      (zone.endOf minute) := by
  obtain ⟨hmem, hgreatest⟩ := LocalTime.isGreatest_last h.regular minute
  refine ⟨Zone.occurs_iff.2 ⟨_, rfl, hmem⟩, ?_⟩
  intro x hx
  obtain ⟨u, rfl, hu⟩ := Zone.occurs_iff.1 hx
  exact mul_minuteNs_le.2 (hgreatest hu)

theorem resolvesStart_iff (h : zone.Lawful) {minute instant : Int} :
    zone.ResolvesStart minute instant ↔ instant = zone.startOf minute := by
  constructor
  · rintro ⟨reached, hreached, hinstant⟩
    have heq := hreached.unique (h.isLeast_occurs minute)
    subst heq
    exact hinstant.unique (h.isLeast_startOf minute)
  · rintro rfl
    exact ⟨_, h.isLeast_occurs minute, h.isLeast_startOf minute⟩

theorem resolvesEnd_iff (h : zone.Lawful) {minute instant : Int} :
    zone.ResolvesEnd minute instant ↔ instant = zone.endOf minute := by
  constructor
  · rintro ⟨reached, hreached, hinstant⟩
    have heq := hreached.unique (h.isLeast_occurs minute)
    subst heq
    exact hinstant.unique (h.isGreatest_endOf minute)
  · rintro rfl
    exact ⟨_, h.isLeast_occurs minute, h.isGreatest_endOf minute⟩

/-! ## The resolution of a boundary -/

theorem checkedLocal_eq {minute : Int} (h : minDate * 1440 ≤ minute)
    (h' : minute < (maxDate + 1) * 1440) : checkedLocal minute = .ok minute := by
  unfold checkedLocal
  rw [ensure_of ⟨h, h'⟩]
  rfl

private theorem resolveFrom_eq (h : zone.Lawful) (isEnd : Bool) (minute : Int) (steps : Nat) :
    ∀ candidate, minute ≤ candidate → candidate ≤ LocalTime.reached zone.minuteOffset minute →
      LocalTime.reached zone.minuteOffset minute < candidate + steps →
      minDate * 1440 ≤ candidate → candidate + steps ≤ (maxDate + 1) * 1440 →
      resolveFrom zone isEnd steps candidate =
        .ok (if isEnd then zone.endOf minute else zone.startOf minute) := by
  have hleast := h.isLeast_occurs minute
  have hstart := h.isLeast_startOf minute
  have hend := h.isGreatest_endOf minute
  have hmin : minDate * 1440 = -138910020480 := by decide
  have hmax : (maxDate + 1) * 1440 = 136837781280 := by decide
  induction steps with
  | zero =>
    intro candidate _ hle hlt
    exfalso
    push_cast at hlt
    omega
  | succ steps ih =>
    intro candidate hfrom hle hlt hlow hhigh
    push_cast at hlt hhigh
    unfold resolveFrom
    rw [checkedLocal_eq hlow (by omega), ok_bind]
    cases hresult : zone.fromLocal candidate with
    | none =>
      have hnot := h.none candidate hresult
      have hne : candidate ≠ LocalTime.reached zone.minuteOffset minute := by
        rintro rfl
        exact hnot _ hstart.1
      exact ih (candidate + 1) (by omega) (by omega) (by omega) (by omega) (by omega)
    | single value =>
      have hiff := h.single candidate value hresult
      have heq : candidate = LocalTime.reached zone.minuteOffset minute :=
        le_antisymm hle (hleast.2 ⟨hfrom, value, (hiff value).2 rfl⟩)
      subst heq
      have hs := (hiff _).1 hstart.1
      have he := (hiff _).1 hend.1
      rw [hs, he, ite_self]
      rfl
    | ambiguous first second =>
      have hiff := h.ambiguous candidate first second hresult
      have heq : candidate = LocalTime.reached zone.minuteOffset minute :=
        le_antisymm hle (hleast.2 ⟨hfrom, first, (hiff first).2 (.inl rfl)⟩)
      subst heq
      show Except.ok (if isEnd then max first second else min first second) = _
      have hmaxEq : max first second = zone.endOf minute := by
        refine IsGreatest.unique ⟨?_, ?_⟩ hend
        · rcases max_choice first second with hmax | hmax
          · exact (hiff _).2 (.inl hmax)
          · exact (hiff _).2 (.inr hmax)
        · intro x hx
          rcases (hiff x).1 hx with rfl | rfl
          · exact le_max_left _ _
          · exact le_max_right _ _
      have hminEq : min first second = zone.startOf minute := by
        refine IsLeast.unique ⟨?_, ?_⟩ hstart
        · rcases min_choice first second with hmin | hmin
          · exact (hiff _).2 (.inl hmin)
          · exact (hiff _).2 (.inr hmin)
        · intro x hx
          rcases (hiff x).1 hx with rfl | rfl
          · exact min_le_left _ _
          · exact min_le_right _ _
      rw [hmaxEq, hminEq]

/-- `resolve_local` finds the resolution of a boundary that is not too close
to the limits of the local times: a gap is at most a day long. -/
theorem resolveLocal_eq (h : zone.Lawful) {minute : Int} (hlow : minDate * 1440 ≤ minute)
    (hhigh : minute + 1441 ≤ (maxDate + 1) * 1440) (isEnd : Bool) :
    resolveLocal zone minute isEnd =
      .ok (if isEnd then zone.endOf minute else zone.startOf minute) := by
  have hreached := LocalTime.reached_le h.regular minute
  refine resolveFrom_eq h isEnd minute 1441 minute le_rfl (LocalTime.le_reached h.regular minute)
    ?_ hlow ?_
  · push_cast
    omega
  · push_cast
    exact hhigh

end Zone

/-! ## Merged windows -/

/-- The minute after the last one of a merged window, counted from the
midnight before it: an end that is not after the start is on the next day. -/
def spanEnd (range : Nat × Nat) : Nat := if range.2 ≤ range.1 then 1440 + range.2 else range.2

section Spans

variable {f g : Int → Int}

/-- The point is covered by a merged window on some day. -/
def Spans (f g : Int → Int) (windows : List (Nat × Nat)) (x : Int) : Prop :=
  ∃ range ∈ windows, ∃ date : Int,
    f (date * 1440 + range.1) ≤ x ∧ x < g (date * 1440 + spanEnd range)

/-- The point is covered by a range of minutes on some day. -/
def DayCover (f g : Int → Int) (ranges : List (Nat × Nat)) (x : Int) : Prop :=
  ∃ date : Int, Ranges.Cover (fun m : Nat => f (date * 1440 + m))
    (fun m : Nat => g (date * 1440 + m)) ranges x

variable (hf : Monotone f) (hg : Monotone g) (hfg : ∀ a, f a ≤ g a)

include hf hg hfg

/-- A window over midnight is its two sides, on one day and on the next. -/
theorem wrap_iff {start finish : Nat} (hstart : start ≤ 1440) {x : Int} :
    (∃ date : Int, f (date * 1440 + start) ≤ x ∧ x < g (date * 1440 + (1440 + finish : Nat))) ↔
      (∃ date : Int, f (date * 1440 + start) ≤ x ∧ x < g (date * 1440 + (1440 : Nat))) ∨
        ∃ date : Int, f (date * 1440 + (0 : Nat)) ≤ x ∧ x < g (date * 1440 + finish) := by
  have hjoin : ∀ date : Int,
      (f (date * 1440 + start) ≤ x ∧ x < g (date * 1440 + (1440 + finish : Nat))) ↔
        (f (date * 1440 + start) ≤ x ∧ x < g (date * 1440 + (1440 : Nat))) ∨
          (f ((date + 1) * 1440 + (0 : Nat)) ≤ x ∧ x < g ((date + 1) * 1440 + finish)) := by
    intro date
    have hmax : date * 1440 + ((1440 + finish : Nat) : Int) =
        max (date * 1440 + (1440 : Nat)) ((date + 1) * 1440 + finish) := by
      rw [max_eq_right (by push_cast; omega)]
      push_cast
      omega
    rw [hmax]
    exact Ranges.cover_join hf hg hfg (by push_cast; omega) (by push_cast; omega)
  simp only [hjoin, exists_or]
  refine or_congr_right ?_
  constructor
  · rintro ⟨date, h⟩
    exact ⟨date + 1, h⟩
  · rintro ⟨date, h⟩
    exact ⟨date - 1, by rwa [Int.sub_add_cancel]⟩

/-- Sorting and joining ranges of minutes keeps what they cover. -/
theorem dayCover_mergeSorted (ranges : List (Nat × Nat)) (x : Int) :
    DayCover f g (Ranges.mergeSorted ranges) x ↔ DayCover f g ranges x := by
  unfold DayCover
  refine exists_congr fun date => ?_
  refine Ranges.cover_mergeSorted ?_ ?_ (fun m => hfg _) ranges x
  · intro a b hab
    exact hf (by omega)
  · intro a b hab
    exact hg (by omega)

/-- The ranges of a window cover what the window covers. -/
theorem dayCover_windowRanges (window : DailyWindow) (x : Int) :
    DayCover f g ((windowRanges window).filter fun range => range.1 ≠ range.2) x ↔
      ∃ date : Int, f (date * 1440 + window.startTime.minuteOfDay) ≤ x ∧
        x < g (window.endOn date) := by
  have hstart : window.startTime.minuteOfDay < 1440 := by
    unfold NaiveTime.minuteOfDay
    omega
  unfold DailyWindow.endOn windowRanges
  generalize window.startTime.minuteOfDay = start at *
  generalize window.endTime.minuteOfDay = finish
  by_cases hlt : start < finish
  · simp only [if_pos hlt]
    rw [List.filter_cons_of_pos (by simpa using ne_of_lt hlt), List.filter_nil]
    simp [DayCover, Ranges.Cover]
  · simp only [if_neg hlt]
    have hend : ∀ date : Int, (date + 1) * 1440 + (finish : Int) =
        date * 1440 + (1440 + finish : Nat) := by
      intro date
      push_cast
      omega
    simp only [hend]
    rw [wrap_iff hf hg hfg (le_of_lt hstart),
      List.filter_cons_of_pos (by simpa using ne_of_lt hstart)]
    by_cases hzero : finish = 0
    · subst hzero
      rw [List.filter_cons_of_neg (by simp), List.filter_nil]
      constructor
      · rintro ⟨date, range, hrange, h⟩
        rw [List.mem_singleton] at hrange
        subst hrange
        exact .inl ⟨date, h⟩
      · rintro (⟨date, h⟩ | ⟨date, hle, hlt⟩)
        · exact ⟨date, _, List.mem_singleton_self _, h⟩
        · -- an empty range at midnight adds nothing to the side before it
          refine ⟨date - 1, _, List.mem_singleton_self _, ?_, ?_⟩
          · exact (hf (by push_cast; omega)).trans hle
          · exact hlt.trans_le (hg (by push_cast; omega))
    · rw [List.filter_cons_of_pos (by simpa using fun h => hzero h.symm), List.filter_nil]
      simp only [DayCover, Ranges.Cover, List.mem_cons, List.not_mem_nil, or_false,
        exists_eq_or_imp, exists_eq_left, exists_or]

end Spans

/-! ## The merged windows of a schedule -/

/-- The ranges before the two sides of midnight are joined. -/
def dayRanges (schedule : List DailyWindow) : List (Nat × Nat) :=
  Ranges.mergeSorted ((schedule.flatMap windowRanges).filter fun range => range.1 ≠ range.2)

theorem windowRanges_bounds {window : DailyWindow} {range : Nat × Nat}
    (h : range ∈ windowRanges window) : range.1 < 1440 ∧ range.2 ≤ 1440 ∧ range.1 ≤ range.2 := by
  have hstart : window.startTime.minuteOfDay < 1440 := by
    unfold NaiveTime.minuteOfDay
    omega
  have hend : window.endTime.minuteOfDay < 1440 := by
    unfold NaiveTime.minuteOfDay
    omega
  unfold windowRanges at h
  simp only at h
  split at h
  · rw [List.mem_singleton] at h
    subst h
    simp only
    omega
  · rw [List.mem_cons, List.mem_singleton] at h
    rcases h with rfl | rfl
    · simp only
      omega
    · simp only
      omega

section DayRanges

variable (schedule : List DailyWindow)

theorem dayRanges_shape : Ranges.Separated (dayRanges schedule) ∧
    Ranges.Proper (dayRanges schedule) ∧
    ∀ range ∈ dayRanges schedule, range.1 < 1440 ∧ range.2 ≤ 1440 := by
  have hbounds : ∀ range ∈ (schedule.flatMap windowRanges).filter fun range => range.1 ≠ range.2,
      range.1 < 1440 ∧ range.2 ≤ 1440 ∧ range.1 < range.2 := by
    intro range hrange
    rw [List.mem_filter, List.mem_flatMap, decide_eq_true_eq] at hrange
    obtain ⟨⟨window, _, hwindow⟩, hne⟩ := hrange
    obtain ⟨hlt, hle, hordered⟩ := windowRanges_bounds hwindow
    exact ⟨hlt, hle, lt_of_le_of_ne hordered hne⟩
  obtain ⟨hseparated, hproper⟩ :=
    Ranges.separated_mergeSorted fun range hrange => (hbounds range hrange).2.2
  exact ⟨hseparated, hproper, Ranges.forall_mergeSorted
    (p := fun start => start < 1440) (q := fun finish => finish ≤ 1440)
    (fun range hrange => (hbounds range hrange).1)
    (fun range hrange => (hbounds range hrange).2.1)⟩

theorem dayRanges_eq_nil : dayRanges schedule = [] ↔ schedule = [] := by
  constructor
  · intro h
    cases schedule with
    | nil => rfl
    | cons window rest =>
      exfalso
      have hstart : window.startTime.minuteOfDay < 1440 := by
        unfold NaiveTime.minuteOfDay
        omega
      -- the start of a window lies in one of its ranges
      have hcover : Ranges.Covers (dayRanges (window :: rest)) window.startTime.minuteOfDay := by
        unfold dayRanges
        rw [Ranges.covers_mergeSorted]
        by_cases hlt : window.startTime.minuteOfDay < window.endTime.minuteOfDay
        · refine ⟨(window.startTime.minuteOfDay, window.endTime.minuteOfDay), ?_, le_rfl, hlt⟩
          simp [windowRanges, hlt]
          omega
        · refine ⟨(window.startTime.minuteOfDay, 1440), ?_, le_rfl, hstart⟩
          simp [windowRanges, hlt]
          omega
      rw [h] at hcover
      obtain ⟨_, hmem, _⟩ := hcover
      cases hmem
  · rintro rfl
    rfl

/-- A minute is covered by the ranges when a window covers it. -/
theorem covers_dayRanges {minute : Nat} (hminute : minute < 1440) :
    Ranges.Covers (dayRanges schedule) minute ↔ ∃ window ∈ schedule, window.covers minute := by
  have hwindow : ∀ window : DailyWindow,
      Ranges.Covers ((windowRanges window).filter fun range => range.1 ≠ range.2) minute ↔
        window.covers minute := by
    intro window
    unfold Ranges.Covers Ranges.Cover DailyWindow.covers windowRanges
    simp only [List.mem_filter, decide_eq_true_eq, id]
    by_cases hlt : window.startTime.minuteOfDay < window.endTime.minuteOfDay
    · simp only [if_pos hlt, List.mem_singleton]
      constructor
      · rintro ⟨range, ⟨rfl, _⟩, h⟩
        exact h
      · intro h
        exact ⟨_, ⟨rfl, ne_of_lt hlt⟩, h⟩
    · simp only [if_neg hlt, List.mem_cons, List.not_mem_nil, or_false]
      constructor
      · rintro ⟨range, ⟨rfl | rfl, _⟩, h⟩
        · exact .inl h.1
        · exact .inr h.2
      · rintro (h | h)
        · refine ⟨_, ⟨.inl rfl, ?_⟩, h, hminute⟩
          simp only
          omega
        · refine ⟨_, ⟨.inr rfl, ?_⟩, Nat.zero_le _, h⟩
          simp only
          omega
  unfold dayRanges
  rw [Ranges.covers_mergeSorted]
  constructor
  · rintro ⟨range, hrange, h⟩
    rw [List.mem_filter, List.mem_flatMap] at hrange
    obtain ⟨⟨window, hmem, hin⟩, hne⟩ := hrange
    exact ⟨window, hmem, (hwindow window).1 ⟨range, List.mem_filter.2 ⟨hin, hne⟩, h⟩⟩
  · rintro ⟨window, hmem, h⟩
    obtain ⟨range, hrange, h⟩ := (hwindow window).2 h
    rw [List.mem_filter] at hrange
    exact ⟨range, List.mem_filter.2 ⟨List.mem_flatMap.2 ⟨window, hmem, hrange.1⟩, hrange.2⟩, h⟩

/-- The ranges cover the instants of the windows. -/
theorem openAt_iff_dayCover {zone : Zone} (h : zone.Lawful) (instant : Int) :
    openAt zone schedule instant ↔
      DayCover zone.startOf zone.endOf (dayRanges schedule) instant := by
  unfold dayRanges
  rw [dayCover_mergeSorted h.startOf_mono h.endOf_mono h.startOf_le_endOf]
  have hwindow := dayCover_windowRanges h.startOf_mono h.endOf_mono h.startOf_le_endOf
  unfold openAt
  simp only [resolvesStart_iff h, resolvesEnd_iff h]
  constructor
  · rintro ⟨window, hmem, date, _, _, rfl, rfl, hle, hlt⟩
    obtain ⟨date, range, hrange, h⟩ := (hwindow window instant).2 ⟨date, hle, hlt⟩
    rw [List.mem_filter] at hrange
    exact ⟨date, range,
      List.mem_filter.2 ⟨List.mem_flatMap.2 ⟨window, hmem, hrange.1⟩, hrange.2⟩, h⟩
  · rintro ⟨date, range, hrange, h⟩
    rw [List.mem_filter, List.mem_flatMap] at hrange
    obtain ⟨⟨window, hmem, hin⟩, hne⟩ := hrange
    obtain ⟨date, hle, hlt⟩ :=
      (hwindow window instant).1 ⟨date, range, List.mem_filter.2 ⟨hin, hne⟩, h⟩
    exact ⟨window, hmem, date, _, _, rfl, rfl, hle, hlt⟩

/-! ## Joining over midnight -/

/-- Joining leaves the ranges alone, or it moves the first one behind the
last one. -/
theorem joinMidnight_cases (merged : List (Nat × Nat)) :
    joinMidnight merged = merged ∨
      ∃ first between final, merged = first :: (between ++ [final]) ∧ first.1 = 0 ∧
        final.2 = 1440 ∧ joinMidnight merged = between ++ [(final.1, first.2)] := by
  match merged with
  | [] => exact .inl rfl
  | [_] => exact .inl rfl
  | first :: second :: rest =>
    unfold joinMidnight
    simp only
    split
    · rename_i h
      refine .inr ⟨first, (second :: rest).dropLast, _, ?_, h.1, h.2, rfl⟩
      rw [List.dropLast_append_getLast]
    · exact .inl rfl

end DayRanges

end DstServer
