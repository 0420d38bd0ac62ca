import DstServer.Lib.Outcome
import DstServer.Lib.Ranges

/-!
# The opening schedule of a room

The model of the schedule in `policy.rs`: the daily windows, their merged
form, the resolution of a local boundary and `schedule_in`, which expands
the windows on the local days from two before to three after the present
one and looks for the opening around the present.

An instant (`DateTime<Utc>`) is its number of nanoseconds since the epoch,
a local date its number of days and a local time of minute precision its
number of minutes.  A time zone is what `chrono` offers of it: the offset
in minutes at an instant, and the instants of a local minute.
-/

namespace DstServer

open Lib Lib.Outcome

/-! ## Instants, dates and time zones -/

/-- Nanoseconds of a minute. -/
def minuteNs : Int := 60000000000

/-- Nanoseconds of a day. -/
def dayNs : Int := 1440 * minuteNs

/-- `NaiveDate::MIN` in days since the epoch. -/
def minDate : Int := -96465292

/-- `NaiveDate::MAX` in days since the epoch. -/
def maxDate : Int := 95026236

/-- `chrono::LocalResult` of the instants of a local time. -/
inductive LocalResult where
  | single (value : Int)
  | ambiguous (first second : Int)
  | none
  deriving DecidableEq, Repr

/-- A time zone of `chrono`. -/
structure Zone where
  /-- The offset from UTC in minutes at an instant. -/
  offset : Int → Int
  /-- `from_local_datetime` of a local time in minutes. -/
  fromLocal : Int → LocalResult

/-- The local time of an instant in nanoseconds. -/
def Zone.localTime (zone : Zone) (instant : Int) : Int := instant + zone.offset instant * minuteNs

/-- The local date of an instant. -/
def Zone.today (zone : Zone) (now : Int) : Int := zone.localTime now / dayNs

/-- The zones of the system: the local one and the named ones. -/
structure Zones where
  system : Zone
  named : String → Option Zone

/-! ## Windows and policies -/

/-- `chrono::NaiveTime`. -/
structure NaiveTime where
  hour : Fin 24
  minute : Fin 60
  second : Fin 60 := 0
  nanosecond : Fin 2000000000 := 0
  deriving DecidableEq, Repr

instance neZeroHour : NeZero 24 := inferInstance

instance neZeroMinute : NeZero 60 := inferInstance

instance neZeroNanosecond : NeZero 2000000000 := inferInstance

/-- The minute of the day. -/
def NaiveTime.minuteOfDay (time : NaiveTime) : Nat := time.hour * 60 + time.minute

structure DailyWindow where
  startTime : NaiveTime
  endTime : NaiveTime
  deriving DecidableEq, Repr

def DailyWindow.validate (window : DailyWindow) : Outcome String Unit := do
  ensure (window.startTime ≠ window.endTime)
    "daily window endpoints must differ; use an empty schedule for all day"
  ensure (∀ time ∈ [window.startTime, window.endTime], time.second = 0 ∧ time.nanosecond = 0)
    "daily windows require minute precision"

structure Policy where
  timezone : String := "local"
  schedule : List DailyWindow := []
  modAutoUpdate : Bool := true
  idleRegeneration : Bool := false
  deriving DecidableEq, Repr

structure ScheduleState where
  isOpen : Bool
  openingId : Option Int
  nextChange : Option Int
  deriving DecidableEq, Repr

namespace Policy

/-- `Policy::zone`, with the zone that is used in either case. -/
def zone (policy : Policy) (zones : Zones) : Outcome String Zone :=
  if policy.timezone = "local" then .ok zones.system
  else orError (zones.named policy.timezone) "unknown IANA schedule timezone"

def validate (policy : Policy) (zones : Zones) : Outcome String Unit := do
  let _ ← policy.zone zones
  ensure (policy.schedule.length ≤ 1440) "too many daily windows"
  policy.schedule.forM DailyWindow.validate

end Policy

/-! ## The merged windows of a day -/

/-- The ranges of one window within its day: a window that wraps midnight
gives two. -/
def windowRanges (window : DailyWindow) : List (Nat × Nat) :=
  let start := window.startTime.minuteOfDay
  let finish := window.endTime.minuteOfDay
  if start < finish then [(start, finish)] else [(start, 1440), (0, finish)]

/-- Join the two sides of midnight into the same named opening. -/
def joinMidnight (merged : List (Nat × Nat)) : List (Nat × Nat) :=
  match merged with
  | first :: second :: rest =>
    let final := (second :: rest).getLast (List.cons_ne_nil second rest)
    if first.1 = 0 ∧ final.2 = 1440 then (second :: rest).dropLast ++ [(final.1, first.2)]
    else merged
  | _ => merged

/-- The sorted ranges are joined without the empty ones. -/
def mergedMinutes (windows : List DailyWindow) : List (Nat × Nat) :=
  joinMidnight
    (Ranges.mergeSorted ((windows.flatMap windowRanges).filter fun range => range.1 ≠ range.2))

/-! ## Local boundaries -/

def checkedDate (date : Int) : Outcome String Int := do
  ensure (minDate ≤ date ∧ date ≤ maxDate) "schedule date is out of range"
  pure date

/-- A local time in minutes that `NaiveDateTime` can represent. -/
def checkedLocal (minute : Int) : Outcome String Int := do
  ensure (minDate * 1440 ≤ minute ∧ minute < (maxDate + 1) * 1440) "schedule date is out of range"
  pure minute

/-- The loop of `resolve_local` with the number of candidates left. -/
def resolveFrom (zone : Zone) (isEnd : Bool) : Nat → Int → Outcome String Int
  | 0, _ => fail "cannot resolve local schedule boundary"
  | steps + 1, candidate => do
    let candidate ← checkedLocal candidate
    match zone.fromLocal candidate with
    | .single value => pure value
    | .ambiguous first second => pure (if isEnd then max first second else min first second)
    | .none => resolveFrom zone isEnd steps (candidate + 1)

/-- The loop runs over the minutes from 0 to 1440. -/
def resolveLocal (zone : Zone) (minute : Int) (isEnd : Bool) : Outcome String Int :=
  resolveFrom zone isEnd 1441 minute

/-! ## The schedule -/

/-- The interval of a merged window on a date, unless it is empty. -/
def windowInterval (zone : Zone) (date : Int) (window : Nat × Nat) :
    Outcome String (Option (Int × Int)) := do
  let endDate ← if window.2 ≤ window.1 ∨ window.2 = 1440 then checkedDate (date + 1) else pure date
  let start ← resolveLocal zone (date * 1440 + window.1) false
  let finish ← resolveLocal zone (endDate * 1440 + (window.2 % 1440 : Nat)) true
  pure (if start < finish then some (start, finish) else none)

/-- The intervals of all windows on the date with an offset from today. -/
def dayIntervals (zone : Zone) (windows : List (Nat × Nat)) (today offset : Int) :
    Outcome String (List (Int × Int)) := do
  let date ← checkedDate (today + offset)
  let intervals ← windows.mapM' (windowInterval zone date)
  pure (intervals.filterMap id)

def scheduleIn (schedule : List DailyWindow) (now : Int) (zone : Zone) :
    Outcome String ScheduleState := do
  let windows := mergedMinutes schedule
  if windows = [] ∨ windows = [(0, 1440)] then pure ⟨true, none, none⟩
  else
    let intervals ← [-2, -1, 0, 1, 2, 3].mapM' (dayIntervals zone windows (zone.today now))
    match Ranges.locate now (Ranges.mergeSorted intervals.flatten) with
    | .inside opening => pure ⟨true, some opening.1, some opening.2⟩
    | .before start => pure ⟨false, none, some start⟩
    | .after => fail "cannot determine the next schedule boundary"

def Policy.scheduleAt (policy : Policy) (zones : Zones) (now : Int) :
    Outcome String ScheduleState := do
  policy.validate zones
  let zone ← policy.zone zones
  scheduleIn policy.schedule now zone

end DstServer
