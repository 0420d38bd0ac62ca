import DstServer.Policy.Opening

/-!
# The schedule agrees with the reference

`schedule_in` expands the windows only on the days from two before to three
after the present one.  This file proves that its answer is nevertheless the
answer of the reference, which expands them on every day.

A schedule that does not cover the whole day leaves some minute of the day
uncovered.  On one of the two days before today, and on one of the two days
after it, no change of the offset touches that minute; there the room is
closed, so the days outside are cut off from the present.  Likewise some
window on one of the last two days opens for certain, so that a next opening
is always found.

* `spans_joinMidnight`: the joined windows are the windows.
* `exists_hole`: a minute that is not covered.
* `scheduleIn_eq`: what `schedule_in` computes in a lawful zone.
* `schedule_refines_reference`: the answer is the answer of the reference.
-/

namespace DstServer

open Lib Lib.Outcome

/-! ## The answer of the reference -/

/-- The schedule is open for ever. -/
def AlwaysOpen (schedule : List DailyWindow) : Prop := schedule = [] ∨ FullDay schedule

/-- The state of the schedule at an instant: the opening is the maximal run
of open instants around it, or the next change is the first open instant
after it. -/
inductive Reference (zone : Zone) (schedule : List DailyWindow) (now : Int) : ScheduleState → Prop
  | always (h : AlwaysOpen schedule) : Reference zone schedule now ⟨true, none, none⟩
  | opened {opening : Int × Int} (hlimited : ¬AlwaysOpen schedule)
      (hopen : openAt zone schedule now) (h : Ranges.Around (openAt zone schedule) now opening) :
      Reference zone schedule now ⟨true, some opening.1, some opening.2⟩
  | closed {next : Int} (hlimited : ¬AlwaysOpen schedule) (hclosed : ¬openAt zone schedule now)
      (h : IsLeast { x | now < x ∧ openAt zone schedule x } next) :
      Reference zone schedule now ⟨false, none, some next⟩

/-- The reference has one answer. -/
theorem Reference.unique {zone : Zone} {schedule : List DailyWindow} {now : Int}
    {a b : ScheduleState} (ha : Reference zone schedule now a) (hb : Reference zone schedule now b) :
    a = b := by
  cases ha with
  | always h =>
    cases hb with
    | always _ => rfl
    | opened hlimited _ _ => exact absurd h hlimited
    | closed hlimited _ _ => exact absurd h hlimited
  | opened hlimited hopen h =>
    cases hb with
    | always h' => exact absurd h' hlimited
    | opened _ _ h' => rw [h.start.unique h'.start, h.finish.unique h'.finish]
    | closed _ hclosed _ => exact absurd hopen hclosed
  | closed hlimited hclosed h =>
    cases hb with
    | always h' => exact absurd h' hlimited
    | opened _ hopen _ => exact absurd hopen hclosed
    | closed _ _ h' => rw [h.unique h']

/-! ## The joined windows -/

section Joined

variable {l : List (Nat × Nat)}

theorem spanEnd_of_lt {range : Nat × Nat} (h : range.1 < range.2) : spanEnd range = range.2 :=
  if_neg (not_le.2 h)

/-- Windows within one day span what they cover. -/
theorem spans_of_proper {f g : Int → Int} (hproper : Ranges.Proper l) (x : Int) :
    Spans f g l x ↔ DayCover f g l x := by
  constructor
  · rintro ⟨range, hrange, date, hle, hlt⟩
    rw [spanEnd_of_lt (hproper range hrange)] at hlt
    exact ⟨date, range, hrange, hle, hlt⟩
  · rintro ⟨date, range, hrange, hle, hlt⟩
    refine ⟨range, hrange, date, hle, ?_⟩
    rw [spanEnd_of_lt (hproper range hrange)]
    exact hlt

theorem spans_cons {f g : Int → Int} {range : Nat × Nat} {x : Int} :
    Spans f g (range :: l) x ↔ Spans f g [range] x ∨ Spans f g l x := by
  unfold Spans
  simp only [List.mem_cons, List.not_mem_nil, or_false, exists_eq_or_imp, exists_eq_left]

/-- Joining the two sides of midnight does not change what the windows
cover. -/
theorem spans_joinMidnight {f g : Int → Int} (hf : Monotone f) (hg : Monotone g)
    (hfg : ∀ a, f a ≤ g a) (hseparated : Ranges.Separated l) (hproper : Ranges.Proper l)
    (hbounds : ∀ range ∈ l, range.1 < 1440 ∧ range.2 ≤ 1440) (x : Int) :
    Spans f g (joinMidnight l) x ↔ DayCover f g l x := by
  rcases joinMidnight_cases l with heq | ⟨first, between, final, rfl, hzero, hlast, heq⟩
  · rw [heq]
    exact spans_of_proper hproper x
  · rw [heq, ← spans_of_proper hproper]
    have hfinal : final ∈ first :: (between ++ [final]) := by simp
    have hapart : first.2 < final.1 := (List.pairwise_cons.1 hseparated).1 final (by simp)
    have hswap : ∀ range : Nat × Nat,
        Spans f g (between ++ [range]) x ↔ Spans f g [range] x ∨ Spans f g between x := by
      intro range
      rw [← spans_cons]
      refine exists_congr fun window => and_congr_left' ?_
      rw [List.mem_append, List.mem_singleton, List.mem_cons, or_comm]
    have hwrap : Spans f g [(final.1, first.2)] x ↔ Spans f g [final] x ∨ Spans f g [first] x := by
      have hspan : spanEnd (final.1, first.2) = 1440 + first.2 := if_pos (le_of_lt hapart)
      unfold Spans
      simp only [List.mem_singleton, exists_eq_left, hspan]
      rw [wrap_iff hf hg hfg (le_of_lt (hbounds final hfinal).1),
        spanEnd_of_lt (hproper final hfinal), spanEnd_of_lt (hproper first List.mem_cons_self),
        hlast, hzero]
    rw [spans_cons (l := between ++ [final]), hswap, hswap, hwrap, ← or_assoc,
      or_comm (a := Spans f g [first] x)]

theorem joinMidnight_eq_nil : joinMidnight l = [] ↔ l = [] := by
  rcases joinMidnight_cases l with heq | ⟨first, between, final, rfl, _, _, heq⟩
  · rw [heq]
  · rw [heq]
    simp

theorem joinMidnight_eq_full (hseparated : Ranges.Separated l) :
    joinMidnight l = [(0, 1440)] ↔ l = [(0, 1440)] := by
  rcases joinMidnight_cases l with heq | ⟨first, between, final, rfl, _, _, heq⟩
  · rw [heq]
  · have hapart : first.2 < final.1 := (List.pairwise_cons.1 hseparated).1 final (by simp)
    rw [heq]
    constructor
    · intro h
      have hmem : (final.1, first.2) ∈ [((0 : Nat), 1440)] := by
        rw [← h]
        simp
      rw [List.mem_singleton, Prod.mk.injEq] at hmem
      omega
    · intro h
      simp at h

/-! ## A minute that is not covered -/

/-- Ranges that are not the whole day leave a minute uncovered. -/
theorem exists_hole (hseparated : Ranges.Separated l) (hproper : Ranges.Proper l)
    (hbounds : ∀ range ∈ l, range.1 < 1440 ∧ range.2 ≤ 1440) (hfull : l ≠ [(0, 1440)]) :
    ∃ minute < 1440, ¬Ranges.Covers l minute := by
  cases l with
  | nil => exact ⟨0, by omega, by simp [Ranges.Cover]⟩
  | cons first rest =>
    have hafter : ∀ range ∈ rest, first.2 < range.1 := (List.pairwise_cons.1 hseparated).1
    have hfirst := hproper first List.mem_cons_self
    have hend := (hbounds first List.mem_cons_self).2
    by_cases hzero : first.1 = 0
    · refine ⟨first.2, ?_, hseparated.not_covers_end hproper List.mem_cons_self⟩
      by_contra hlast
      have hnil : rest = [] := by
        apply List.eq_nil_iff_forall_not_mem.2
        intro range hrange
        have hstart := hafter range hrange
        have hbound := (hbounds range (List.mem_cons_of_mem _ hrange)).1
        omega
      apply hfull
      rw [hnil, List.cons.injEq]
      exact ⟨Prod.ext hzero (by omega), rfl⟩
    · refine ⟨0, by omega, ?_⟩
      rintro ⟨range, hrange, hle, _⟩
      simp only [id] at hle
      rcases List.mem_cons.1 hrange with rfl | hrange
      · omega
      · have hstart := hafter range hrange
        omega

/-- An uncovered minute lies outside of every joined window on every day. -/
theorem hole_outside (hseparated : Ranges.Separated l) (hproper : Ranges.Proper l)
    {minute : Nat} (hminute : minute < 1440) (hhole : ¬Ranges.Covers l minute)
    (hbounds : ∀ range ∈ l, range.1 < 1440 ∧ range.2 ≤ 1440) {window : Nat × Nat}
    (hwindow : window ∈ joinMidnight l) (day date : Int) :
    date * 1440 + spanEnd window ≤ day * 1440 + minute ∨
      day * 1440 + minute + 1 ≤ date * 1440 + window.1 := by
  have hout : ∀ range ∈ l, minute < range.1 ∨ range.2 ≤ minute := by
    intro range hrange
    by_contra hin
    rw [not_or, not_lt, not_le] at hin
    exact hhole ⟨range, hrange, hin.1, hin.2⟩
  have hwithin : ∀ range ∈ l, date * 1440 + spanEnd range ≤ day * 1440 + minute ∨
      day * 1440 + minute + 1 ≤ date * 1440 + range.1 := by
    intro range hrange
    rw [spanEnd_of_lt (hproper range hrange)]
    have hside := hout range hrange
    have hbound := hbounds range hrange
    omega
  rcases joinMidnight_cases l with heq | ⟨first, between, final, rfl, hzero, hlast, heq⟩
  · rw [heq] at hwindow
    exact hwithin window hwindow
  · rw [heq, List.mem_append, List.mem_singleton] at hwindow
    rcases hwindow with hmem | rfl
    · exact hwithin window (by simp [hmem])
    · have hapart : first.2 < final.1 := (List.pairwise_cons.1 hseparated).1 final (by simp)
      have hspan : spanEnd (final.1, first.2) = 1440 + first.2 := if_pos (le_of_lt hapart)
      have hstart := hout first List.mem_cons_self
      have hfinish := hout final (by simp)
      rw [hspan]
      push_cast
      omega

/-- A joined window starts within the day and takes at most until the same
minute of the next day. -/
theorem joinMidnight_bounds (hproper : Ranges.Proper l)
    (hbounds : ∀ range ∈ l, range.1 < 1440 ∧ range.2 ≤ 1440) {window : Nat × Nat}
    (hwindow : window ∈ joinMidnight l) :
    window.1 < 1440 ∧ window.1 < spanEnd window ∧ spanEnd window ≤ 2880 ∧ window.2 ≤ 1440 := by
  have hmem : window.1 < 1440 ∧ window.2 ≤ 1440 := by
    rcases joinMidnight_cases l with heq | ⟨first, between, final, rfl, _, _, heq⟩
    · rw [heq] at hwindow
      exact hbounds window hwindow
    · rw [heq, List.mem_append, List.mem_singleton] at hwindow
      rcases hwindow with hmem | rfl
      · exact hbounds window (by simp [hmem])
      · exact ⟨(hbounds final (by simp)).1, (hbounds first (by simp)).2⟩
  unfold spanEnd
  split <;> omega

end Joined

/-! ## The intervals that the code finds -/

/-- The interval of a window on a date, unless it is empty. -/
noncomputable def spanInterval (zone : Zone) (window : Nat × Nat) (date : Int) :
    Option (Int × Int) :=
  let start := zone.startOf (date * 1440 + window.1)
  let finish := zone.endOf (date * 1440 + spanEnd window)
  if start < finish then some (start, finish) else none

/-- The offsets of the days that are expanded. -/
def nearbyDays : List Int := [-2, -1, 0, 1, 2, 3]

/-- All intervals on the days that are expanded. -/
noncomputable def nearbyIntervals (zone : Zone) (windows : List (Nat × Nat)) (today : Int) :
    List (Int × Int) :=
  nearbyDays.flatMap fun offset => windows.filterMap fun window =>
    spanInterval zone window (today + offset)

section Intervals

variable {zone : Zone} (h : zone.Lawful) {windows : List (Nat × Nat)}

theorem checkedDate_eq {date : Int} (hlow : minDate ≤ date) (hhigh : date ≤ maxDate) :
    checkedDate date = .ok date := by
  unfold checkedDate
  rw [ensure_of ⟨hlow, hhigh⟩]
  rfl

theorem mem_nearbyDays {offset : Int} : offset ∈ nearbyDays ↔ -2 ≤ offset ∧ offset ≤ 3 := by
  unfold nearbyDays
  simp only [List.mem_cons, List.not_mem_nil, or_false]
  omega

theorem covers_nearbyIntervals {today x : Int} :
    Ranges.Covers (nearbyIntervals zone windows today) x ↔
      ∃ window ∈ windows, ∃ date, today - 2 ≤ date ∧ date ≤ today + 3 ∧
        zone.startOf (date * 1440 + window.1) ≤ x ∧
        x < zone.endOf (date * 1440 + spanEnd window) := by
  constructor
  · rintro ⟨interval, hmem, hle, hlt⟩
    unfold nearbyIntervals at hmem
    rw [List.mem_flatMap] at hmem
    obtain ⟨offset, hoffset, hmem⟩ := hmem
    rw [List.mem_filterMap] at hmem
    obtain ⟨window, hwindow, hinterval⟩ := hmem
    rw [mem_nearbyDays] at hoffset
    simp only [spanInterval, Option.ite_none_right_eq_some, Option.some.injEq] at hinterval
    obtain ⟨_, rfl⟩ := hinterval
    exact ⟨window, hwindow, today + offset, by omega, by omega, hle, hlt⟩
  · rintro ⟨window, hwindow, date, hfrom, hto, hle, hlt⟩
    refine ⟨(_, _), ?_, hle, hlt⟩
    unfold nearbyIntervals
    rw [List.mem_flatMap]
    refine ⟨date - today, mem_nearbyDays.2 (by omega), ?_⟩
    rw [List.mem_filterMap]
    refine ⟨window, hwindow, ?_⟩
    rw [show today + (date - today) = date by omega]
    exact if_pos (lt_of_le_of_lt hle hlt)

theorem proper_nearbyIntervals (zone : Zone) (windows : List (Nat × Nat)) (today : Int) :
    Ranges.Proper (nearbyIntervals zone windows today) := by
  intro interval hmem
  unfold nearbyIntervals at hmem
  simp only [List.mem_flatMap, List.mem_filterMap, spanInterval,
    Option.ite_none_right_eq_some, Option.some.injEq] at hmem
  obtain ⟨_, _, _, _, hlt, rfl⟩ := hmem
  exact hlt

include h

/-- The interval of a window on a date away from the limits. -/
theorem windowInterval_eq {date : Int} (hlow : minDate ≤ date) (hhigh : date + 2 ≤ maxDate)
    {window : Nat × Nat} (hstart : window.1 < 1440) (hend : window.2 ≤ 1440) :
    windowInterval zone date window = .ok (spanInterval zone window date) := by
  have hmin : minDate = -96465292 := rfl
  have hmax : maxDate = 95026236 := rfl
  unfold windowInterval
  by_cases hnext : window.2 ≤ window.1 ∨ window.2 = 1440
  · have hlocal : (date + 1) * 1440 + (window.2 % 1440 : Nat) = date * 1440 + spanEnd window := by
      unfold spanEnd
      split <;> omega
    have hspan : spanEnd window ≤ 2879 := by
      unfold spanEnd
      split <;> omega
    rw [if_pos hnext, checkedDate_eq (by omega) (by omega), ok_bind]
    simp only [hlocal]
    rw [resolveLocal_eq h (by omega) (by omega), ok_bind,
      resolveLocal_eq h (by omega) (by omega), ok_bind]
    rfl
  · have hlocal : date * 1440 + (window.2 % 1440 : Nat) = date * 1440 + spanEnd window := by
      unfold spanEnd
      split <;> omega
    rw [if_neg hnext, pure_eq_ok, ok_bind]
    simp only [hlocal]
    rw [resolveLocal_eq h (by omega) (by omega), ok_bind,
      resolveLocal_eq h (by omega) (by omega), ok_bind]
    rfl

theorem dayIntervals_eq {today offset : Int} (hlow : minDate ≤ today + offset)
    (hhigh : today + offset + 2 ≤ maxDate)
    (hbounds : ∀ window ∈ windows, window.1 < 1440 ∧ window.2 ≤ 1440) :
    dayIntervals zone windows today offset =
      .ok (windows.filterMap fun window => spanInterval zone window (today + offset)) := by
  have hmap : windows.mapM' (windowInterval zone (today + offset)) =
      .ok (windows.map fun window => spanInterval zone window (today + offset)) := by
    apply mapM'_of_ok
    intro window hwindow
    obtain ⟨hstart, hend⟩ := hbounds window hwindow
    exact windowInterval_eq h hlow hhigh hstart hend
  unfold dayIntervals
  rw [checkedDate_eq hlow (by omega), ok_bind, hmap, ok_bind, List.filterMap_map]
  rfl

/-- Away from the limits every day that is expanded has its intervals. -/
theorem mapM'_nearbyDays {now : Int} (haway : zone.AwayFromLimits now)
    (hbounds : ∀ window ∈ windows, window.1 < 1440 ∧ window.2 ≤ 1440) :
    ∃ intervals, nearbyDays.mapM' (dayIntervals zone windows (zone.today now)) = .ok intervals ∧
      intervals.flatten = nearbyIntervals zone windows (zone.today now) := by
  refine ⟨_, mapM'_of_ok ?_, List.flatMap_def.symm⟩
  intro offset hoffset
  rw [mem_nearbyDays] at hoffset
  have hlow := haway.1
  have hhigh := haway.2
  exact dayIntervals_eq h (by omega) (by omega) hbounds

end Intervals

/-! ## The present instant -/

section Present

variable {zone : Zone} (h : zone.Lawful)

include h

/-- The minute of an instant and its offset, which is the one at the
beginning or at the end of the minute. -/
theorem Zone.Lawful.exists_minute (now : Int) : ∃ minute offset,
    minute * minuteNs ≤ now ∧ now < (minute + 1) * minuteNs ∧
    (offset = zone.minuteOffset minute ∨ offset = zone.minuteOffset (minute + 1)) ∧
    zone.today now * 1440 ≤ minute + offset ∧ minute + offset < (zone.today now + 1) * 1440 := by
  refine ⟨now / minuteNs, zone.offset now, ?_, ?_, ?_, ?_, ?_⟩
  · exact Int.ediv_mul_le now (by decide)
  · exact Int.lt_ediv_add_one_mul_self now minuteNs_pos
  · obtain ⟨t, before, after, _, _, hoffset⟩ := h.piecewise (now / minuteNs * minuteNs)
    unfold Zone.minuteOffset
    unfold dayNs minuteNs at *
    have hnow := hoffset now (by omega) (by omega)
    have hfirst := hoffset (now / 60000000000 * 60000000000) le_rfl (by omega)
    have hnext := hoffset ((now / 60000000000 + 1) * 60000000000) (by omega) (by omega)
    by_cases hbefore : now < t
    · rw [if_pos hbefore] at hnow
      rw [if_pos (by omega)] at hfirst
      exact .inl (hnow.trans hfirst.symm)
    · rw [if_neg hbefore] at hnow
      rw [if_neg (by omega)] at hnext
      exact .inr (hnow.trans hnext.symm)
  · unfold Zone.today Zone.localTime dayNs minuteNs
    omega
  · unfold Zone.today Zone.localTime dayNs minuteNs
    omega

/-- On one of two days no change of the offset touches a minute. -/
theorem Zone.Lawful.exists_calm (day minute : Int) :
    ∃ date, (date = day ∨ date = day + 1) ∧
      ¬LocalTime.Affected zone.minuteOffset (date * 1440 + minute) := by
  by_cases hday : LocalTime.Affected zone.minuteOffset (day * 1440 + minute)
  · refine ⟨day + 1, .inr rfl, ?_⟩
    have hnext := hday.not_next_day h.regular
    rwa [show day * 1440 + minute + 1440 = (day + 1) * 1440 + minute by omega] at hnext
  · exact ⟨day, .inl rfl, hday⟩

/-- A minute that no change touches is over before the next one begins. -/
theorem Zone.Lawful.endOf_lt_startOf {minute : Int}
    (hcalm : ¬LocalTime.Affected zone.minuteOffset minute) :
    zone.endOf minute < zone.startOf (minute + 1) := by
  apply mul_minuteNs_lt.2
  by_contra hle
  exact hcalm (LocalTime.affected_of_first_le_last h.regular (not_lt.1 hle))

/-- A window that begins at a minute that no change touches opens. -/
theorem Zone.Lawful.startOf_lt_endOf {start finish : Int} (hlt : start < finish)
    (hcalm : ¬LocalTime.Affected zone.minuteOffset start) :
    zone.startOf start < zone.endOf finish := by
  apply mul_minuteNs_lt.2
  by_contra hle
  exact hcalm (LocalTime.affected_of_last_le_first h.regular hlt (not_lt.1 hle))

/-- A calm minute before today is over. -/
theorem Zone.Lawful.endOf_le_now {now minute : Int} (hminute : minute < zone.today now * 1440)
    (hcalm : ¬LocalTime.Affected zone.minuteOffset minute) : zone.endOf minute ≤ now := by
  obtain ⟨n, o, hn, _, ho, htoday, _⟩ := h.exists_minute now
  have hhole := mul_minuteNs_lt.1 (h.endOf_lt_startOf hcalm)
  have hle := LocalTime.last_le_of_lt h.regular ho (show minute < n + o by omega) hhole
  exact (mul_minuteNs_le.2 hle).trans hn

/-- A minute after today is not over. -/
theorem Zone.Lawful.now_lt_endOf {now : Int} (minute : Int)
    (hminute : (zone.today now + 1) * 1440 ≤ minute) : now < zone.endOf minute := by
  obtain ⟨n, o, _, hn, ho, _, htoday⟩ := h.exists_minute now
  have hlt := LocalTime.lt_last_of_lt h.regular ho (show n + o < minute by omega)
  exact hn.trans_le (mul_minuteNs_le.2 hlt)

/-- A minute more than a day after today did not begin. -/
theorem Zone.Lawful.now_lt_startOf {now : Int} (minute : Int)
    (hminute : (zone.today now + 2) * 1440 ≤ minute) : now < zone.startOf minute := by
  obtain ⟨n, o, _, hn, ho, _, htoday⟩ := h.exists_minute now
  have hlt := LocalTime.lt_first_of_lt h.regular ho (show n + o + 1440 < minute by omega)
  exact hn.trans_le (mul_minuteNs_le.2 hlt)

end Present

/-! ## The search -/

section Search

variable {zone : Zone} (h : zone.Lawful) {schedule : List DailyWindow}

include h

/-- The instants that are open are those of the joined windows. -/
theorem openAt_iff_spans (instant : Int) :
    openAt zone schedule instant ↔
      Spans zone.startOf zone.endOf (mergedMinutes schedule) instant := by
  obtain ⟨hseparated, hproper, hbounds⟩ := dayRanges_shape schedule
  rw [openAt_iff_dayCover schedule h]
  exact (spans_joinMidnight h.startOf_mono h.endOf_mono h.startOf_le_endOf
    hseparated hproper hbounds instant).symm

/-- The intervals near an instant find its place in the reference. -/
theorem locates_nearby (hnil : dayRanges schedule ≠ []) (hfull : dayRanges schedule ≠ [(0, 1440)])
    (now : Int) :
    Ranges.Locates (openAt zone schedule) now (Ranges.locate now (Ranges.mergeSorted
      (nearbyIntervals zone (mergedMinutes schedule) (zone.today now)))) := by
  obtain ⟨hseparated, hproper, hbounds⟩ := dayRanges_shape schedule
  obtain ⟨minute, hminute, hhole⟩ := exists_hole hseparated hproper hbounds hfull
  obtain ⟨window, hwindow⟩ : ∃ window, window ∈ mergedMinutes schedule :=
    List.exists_mem_of_ne_nil _ (mt joinMidnight_eq_nil.1 hnil)
  obtain ⟨hstart, hordered, _, _⟩ := joinMidnight_bounds hproper hbounds hwindow
  -- a closed day before now, one after it, and a later opening
  obtain ⟨past, hpast, hpastCalm⟩ := h.exists_calm (zone.today now - 2) minute
  obtain ⟨future, hfuture, hfutureCalm⟩ := h.exists_calm (zone.today now + 1) minute
  obtain ⟨next, hnext, hnextCalm⟩ := h.exists_calm (zone.today now + 2) window.1
  have hbeside : ∀ other ∈ mergedMinutes schedule, ∀ day date : Int,
      date * 1440 + spanEnd other ≤ day * 1440 + minute ∨
        day * 1440 + minute + 1 ≤ date * 1440 + other.1 := by
    intro other hother day date
    exact hole_outside hseparated hproper hminute hhole hbounds hother day date
  have hclosed : ∀ {day : Int}, ¬LocalTime.Affected zone.minuteOffset (day * 1440 + minute) →
      ¬openAt zone schedule (zone.endOf (day * 1440 + minute)) := by
    intro day hcalm hopen
    obtain ⟨other, hother, date, hle, hlt⟩ := (openAt_iff_spans h _).1 hopen
    rcases hbeside other hother day date with hbefore | hafter
    · exact absurd (hlt.trans_le (h.endOf_mono hbefore)) (lt_irrefl _)
    · have hlater := (h.endOf_lt_startOf hcalm).trans_le (h.startOf_mono hafter)
      exact absurd (hlater.trans_le hle) (lt_irrefl _)
  have hpastNow : zone.endOf (past * 1440 + minute) ≤ now :=
    h.endOf_le_now (by omega) hpastCalm
  have hnearby : ∀ x, openAt zone schedule x →
      Ranges.Covers (Ranges.mergeSorted
        (nearbyIntervals zone (mergedMinutes schedule) (zone.today now))) x ∨
      x < zone.endOf (past * 1440 + minute) ∨
      zone.startOf ((zone.today now + 4) * 1440) ≤ x := by
    intro x hx
    obtain ⟨other, hother, date, hle, hlt⟩ := (openAt_iff_spans h x).1 hx
    obtain ⟨hotherStart, _⟩ := joinMidnight_bounds hproper hbounds hother
    by_cases hbefore : date < zone.today now - 2
    · rcases hbeside other hother past date with hside | hside
      · exact .inr (.inl (hlt.trans_le (h.endOf_mono hside)))
      · omega
    · by_cases hafter : zone.today now + 3 < date
      · exact .inr (.inr ((h.startOf_mono (by omega)).trans hle))
      · refine .inl ((Ranges.covers_mergeSorted _ x).2 (covers_nearbyIntervals.2 ?_))
        exact ⟨other, hother, date, by omega, by omega, hle, hlt⟩
  obtain ⟨hapart, hnonempty⟩ := Ranges.separated_mergeSorted
    (proper_nearbyIntervals zone (mergedMinutes schedule) (zone.today now))
  refine Ranges.locate_spec hapart hnonempty ?_ hpastNow (hclosed hpastCalm)
    (h.now_lt_endOf (future * 1440 + minute) (by omega)) (hclosed hfutureCalm) ?_
    (h.now_lt_startOf (next * 1440 + window.1) (by omega)) ?_ ?_
  · intro x hx
    rw [Ranges.covers_mergeSorted, covers_nearbyIntervals] at hx
    obtain ⟨other, hother, date, _, _, hle, hlt⟩ := hx
    exact (openAt_iff_spans h x).2 ⟨other, hother, date, hle, hlt⟩
  · intro x hpastX hxFuture hx
    rcases hnearby x hx with hcovers | hbefore | hafter
    · exact hcovers
    · exact absurd (hbefore.trans_le hpastX) (lt_irrefl _)
    · have hlater := (h.endOf_lt_startOf hfutureCalm).trans_le
        (h.startOf_mono (show future * 1440 + minute + 1 ≤ (zone.today now + 4) * 1440 by omega))
      exact absurd (hlater.trans_le (hafter.trans hxFuture)) (lt_irrefl _)
  · rw [Ranges.covers_mergeSorted, covers_nearbyIntervals]
    exact ⟨window, hwindow, next, by omega, by omega, le_rfl,
      h.startOf_lt_endOf (by omega) hnextCalm⟩
  · intro x hnowX hx hmissed
    rcases hnearby x hx with hcovers | hbefore | hafter
    · exact absurd hcovers hmissed
    · exact absurd (hbefore.trans_le (hpastNow.trans (le_of_lt hnowX))) (lt_irrefl _)
    · exact (h.startOf_mono (by omega)).trans hafter

end Search

/-! ## The refinement -/

/-- The code takes a schedule for always open when it is. -/
theorem alwaysOpen_iff (schedule : List DailyWindow) :
    AlwaysOpen schedule ↔ mergedMinutes schedule = [] ∨ mergedMinutes schedule = [(0, 1440)] := by
  obtain ⟨hseparated, hproper, hbounds⟩ := dayRanges_shape schedule
  have hmerged : mergedMinutes schedule = joinMidnight (dayRanges schedule) := rfl
  rw [hmerged, joinMidnight_eq_nil, joinMidnight_eq_full hseparated, dayRanges_eq_nil]
  refine or_congr_right ?_
  constructor
  · intro hall
    by_contra hfull
    obtain ⟨minute, hminute, hhole⟩ := exists_hole hseparated hproper hbounds hfull
    exact hhole ((covers_dayRanges schedule hminute).2 (hall minute hminute))
  · intro hfull minute hminute
    apply (covers_dayRanges schedule hminute).1
    rw [hfull]
    exact ⟨(0, 1440), List.mem_singleton_self _, Nat.zero_le _, hminute⟩

theorem scheduleIn_reference {zone : Zone} (h : zone.Lawful) {now : Int}
    (haway : zone.AwayFromLimits now) (schedule : List DailyWindow) :
    ∃ state, scheduleIn schedule now zone = .ok state ∧ Reference zone schedule now state := by
  obtain ⟨hseparated, hproper, hbounds⟩ := dayRanges_shape schedule
  unfold scheduleIn
  by_cases halways : AlwaysOpen schedule
  · rw [if_pos ((alwaysOpen_iff schedule).1 halways)]
    exact ⟨_, rfl, .always halways⟩
  have hlimited := mt (alwaysOpen_iff schedule).2 halways
  have hshape := hlimited
  rw [not_or, mergedMinutes] at hshape
  have hlocates := locates_nearby h (mt joinMidnight_eq_nil.2 hshape.1)
    (mt (joinMidnight_eq_full hseparated).2 hshape.2) now
  have hwindows : ∀ window ∈ mergedMinutes schedule, window.1 < 1440 ∧ window.2 ≤ 1440 := by
    intro window hwindow
    obtain ⟨hstart, _, _, hend⟩ := joinMidnight_bounds hproper hbounds hwindow
    exact ⟨hstart, hend⟩
  obtain ⟨intervals, hintervals, hflat⟩ := mapM'_nearbyDays h haway hwindows
  rw [← hflat] at hlocates
  rw [if_neg hlimited]
  show ∃ state, (nearbyDays.mapM' _ >>= _) = _ ∧ _
  rw [hintervals]
  simp only [ok_bind]
  cases hlocate : Ranges.locate now (Ranges.mergeSorted intervals.flatten) with
  | inside opening =>
    rw [hlocate] at hlocates
    exact ⟨_, rfl, .opened halways hlocates.1 hlocates.2⟩
  | before start =>
    rw [hlocate] at hlocates
    exact ⟨_, rfl, .closed halways hlocates.1 hlocates.2⟩
  | after =>
    rw [hlocate] at hlocates
    exact hlocates.elim

/-- The schedule never fails away from the limits, and its answer is the
answer of the reference. -/
theorem schedule_refines_reference (policy : Policy) (zones : Zones) (zone : Zone) (now : Int)
    (hvalid : policy.validate zones = .ok ()) (hzone : policy.zone zones = .ok zone)
    (hlawful : zone.Lawful) (haway : zone.AwayFromLimits now) :
    (∃ state, policy.scheduleAt zones now = .ok state) ∧
      ∀ state, policy.scheduleAt zones now = .ok state ↔
        Reference zone policy.schedule now state := by
  obtain ⟨answer, hanswer, hreference⟩ := scheduleIn_reference hlawful haway policy.schedule
  have hschedule : policy.scheduleAt zones now = .ok answer := by
    unfold Policy.scheduleAt
    rw [hvalid, ok_bind, hzone, ok_bind, hanswer]
  refine ⟨⟨answer, hschedule⟩, ?_⟩
  intro state
  rw [hschedule, Except.ok.injEq]
  constructor
  · rintro rfl
    exact hreference
  · intro hstate
    exact hreference.unique hstate

/-! ## A zone with one change -/

/-- The zone whose offset changes once, at the beginning of a minute. -/
def Zone.oneChange (change before after : Int) : Zone where
  offset instant := if instant < change * minuteNs then before else after
  fromLocal minute :=
    if minute - before < change then
      if change ≤ minute - after then
        .ambiguous ((minute - before) * minuteNs) ((minute - after) * minuteNs)
      else .single ((minute - before) * minuteNs)
    else if change ≤ minute - after then .single ((minute - after) * minuteNs)
    else .none

theorem Zone.occurs_oneChange {change before after minute instant : Int} :
    (Zone.oneChange change before after).Occurs minute instant ↔
      (minute - before < change ∧ instant = (minute - before) * minuteNs) ∨
        (change ≤ minute - after ∧ instant = (minute - after) * minuteNs) := by
  unfold Zone.Occurs Zone.localTime Zone.oneChange minuteNs
  simp only
  by_cases h : instant < change * 60000000000
  · rw [if_pos h]
    omega
  · rw [if_neg h]
    omega

theorem Zone.lawful_oneChange {change before after : Int} (hback : before ≤ after + 1440)
    (hforth : after ≤ before + 1440) : (Zone.oneChange change before after).Lawful where
  piecewise a := ⟨change * minuteNs, before, after, hback, hforth, fun _ _ _ => rfl⟩
  single := by
    intro minute x hx y
    rw [Zone.occurs_oneChange]
    simp only [Zone.oneChange] at hx
    split at hx
    · split at hx
      · cases hx
      · cases hx
        omega
    · split at hx
      · cases hx
        omega
      · cases hx
  ambiguous := by
    intro minute x y hx z
    rw [Zone.occurs_oneChange]
    simp only [Zone.oneChange] at hx
    split at hx
    · split at hx
      · cases hx
        omega
      · cases hx
    · split at hx <;> cases hx
  none := by
    intro minute hx x
    rw [Zone.occurs_oneChange]
    simp only [Zone.oneChange] at hx
    split at hx
    · split at hx <;> cases hx
    · split at hx
      · cases hx
      · omega

/-- An hour is skipped at the epoch; the room is open from 22:00 to 02:00. -/
theorem schedule_refines_reference_sample :
    let zone := Zone.oneChange 0 60 120
    let zones : Zones := ⟨zone, fun _ => none⟩
    let policy : Policy := { schedule := [⟨⟨22, 0, 0, 0⟩, ⟨2, 0, 0, 0⟩⟩] }
    (∃ state, policy.scheduleAt zones (-1) = .ok state) ∧
      ∀ state, policy.scheduleAt zones (-1) = .ok state ↔
        Reference zone policy.schedule (-1) state :=
  schedule_refines_reference _ _ _ _ rfl rfl
    (Zone.lawful_oneChange (by decide) (by decide)) ⟨by decide, by decide⟩

end DstServer
