import DstServer.Lib.Json
import DstServer.Lib.OrderedMap
import DstServer.Lib.Outcome
import DstServer.Rpc.Codec

/-!
# The countdown of a notice

The model of `Countdown::validate` in `model.rs` and of `render_countdown`,
`countdown` and `next_notice` in `policy.rs`.  An instant and a duration
are numbers of nanoseconds.

`Turns` is what the clock and the receiver do: how long an announcement
takes and how late a sleep ends are any numbers.  A `Run` is what the
countdown does then.
-/

namespace DstServer.Notices

open Lib Lib.Outcome Rpc

/-! ## The notice -/

/-- A `Duration`: its seconds are a `u64`. -/
structure Duration where
  nanos : Nat
  bound : nanos < 2 ^ 64 * 1000000000

/-- A notice; `φ` is the type of its floating point numbers. -/
structure Countdown (φ : Type) where
  template : Text
  delay : φ
  interval : φ
  parameters : OrderedMap String Json

/-- What a notice needs of numbers, of Unicode and of the clock. -/
structure Host (φ : Type) where
  isFinite : φ → Bool
  /-- `value < 0.0` -/
  isNegative : φ → Bool
  /-- `value <= 0.0` -/
  isAtMostZero : φ → Bool
  /-- `Duration::try_from_secs_f64` -/
  duration : φ → Option Duration
  /-- `value.as_f64().is_some_and(f64::is_finite)`, at a number. -/
  isFiniteNumber : String → Bool
  isAlphabetic : Char → Bool
  isAlphanumeric : Char → Bool
  /-- The last instant of the clock. -/
  limit : Nat
  /-- `remaining.as_secs_f64().ceil()` -/
  seconds : Nat → Nat
  /-- `(seconds / 60.0).ceil()` -/
  minutes : Nat → Nat

variable {φ : Type} (host : Host φ)

/-! ## Validation -/

/-- `MAX_SOURCE_BYTES` of `model.rs` -/
def maxSourceBytes : Nat := 3072

/-- `Error::invalid` -/
def invalid (field message : String) : Error :=
  ⟨.invalid, message, .object [("field", .string field)]⟩

def checkedDuration (field : String) (value : φ) (now : Nat) : Outcome Error Duration :=
  orError ((host.duration value).filter fun duration => now + duration.nanos ≤ host.limit)
    (invalid field "duration is out of range")

def nonnegative (field : String) (value : φ) (now : Nat) : Outcome Error Unit := do
  ensure (host.isFinite value = true) (invalid field "number must be finite")
  ensure (host.isNegative value = false) (invalid field "number cannot be negative")
  let _ ← checkedDuration host field value now
  pure ()

def positiveDuration (field : String) (value : φ) (now : Nat) : Outcome Error Duration := do
  ensure (host.isFinite value = true ∧ host.isAtMostZero value = false)
    (invalid field "duration must be positive and finite")
  let duration ← checkedDuration host field value now
  ensure (duration.nanos ≠ 0) (invalid field "duration must be at least one nanosecond")
  pure duration

/-- The names that the countdown gives a value itself. -/
def reserved : List String := ["remaining", "minutes", "when"]

def identifierName (name : Text) : Bool :=
  match name with
  | [] => false
  | initial :: rest =>
    (initial = '_' || host.isAlphabetic initial) && rest.all fun c => c = '_' || host.isAlphanumeric c

/-- A text or a finite number. -/
def isParameter : Json → Bool
  | .string _ => true
  | .number literal => host.isFiniteNumber literal
  | _ => false

/-- The body of the loop over the parameters. -/
def validateParameter (parameter : String × Json) : Outcome Error Unit := do
  ensure (parameter.1 ∉ reserved) (invalid "notice.parameters" "reserved countdown parameter")
  ensure (isParameter host parameter.2 = true)
    (invalid "notice.parameters" "countdown parameters must be text or finite numbers")

/-- A placeholder has a value. -/
def Known (notice : Countdown φ) (name : Text) : Prop :=
  identifierName host name = true ∧
    (String.ofList name ∈ reserved ∨ notice.parameters.get? (.ofList name) ≠ none)

instance (notice : Countdown φ) (name : Text) : Decidable (Known host notice name) := by
  unfold Known
  infer_instance

theorem splitOnce_length {at? : Char → Bool} {text before after : Text}
    (h : Text.splitOnce at? text = some (before, after)) : after.length < text.length := by
  induction text generalizing before with
  | nil => cases h
  | cons c rest ih =>
    rw [Text.splitOnce] at h
    split at h
    · cases h
      exact Nat.lt_succ_self _
    · obtain ⟨parts, hparts, heq⟩ := Option.map_eq_some_iff.1 h
      cases heq
      exact Nat.lt_succ_of_lt (ih hparts)

/-- The loop over the template. -/
def validateTemplate (notice : Countdown φ) : Text → Outcome Error Unit
  | [] => pure ()
  | c :: rest =>
    if c = '{' then
      if rest.head? = some '{' then validateTemplate notice rest.tail
      else match h : Text.splitOnce (· = '}') rest with
        | none => fail (invalid "notice.template" "unclosed countdown placeholder")
        | some (name, after) => do
          ensure (Known host notice name)
            (invalid "notice.template" "unknown or invalid countdown placeholder")
          validateTemplate notice after
    else if c = '}' then do
      ensure (rest.head? = some '}') (invalid "notice.template" "unmatched closing brace")
      validateTemplate notice rest.tail
    else validateTemplate notice rest
termination_by text => text.length
decreasing_by
  · simp only [List.length_cons, List.length_tail]
    omega
  · exact Nat.lt_succ_of_lt (splitOnce_length h)
  · simp only [List.length_cons, List.length_tail]
    omega
  · exact Nat.lt_succ_self _

/-- `Countdown::validate`; the clock is read once for each of the two durations. -/
def validate (notice : Countdown φ) (now later : Nat) : Outcome Error Unit := do
  ensure (notice.template ≠ [] ∧ Text.utf8Length notice.template ≤ maxSourceBytes ∧
      '\x00' ∉ notice.template)
    (invalid "notice.template" "text is empty, contains NUL, or exceeds the byte limit")
  nonnegative host "notice.delay" notice.delay now
  let _ ← positiveDuration host "notice.interval" notice.interval later
  notice.parameters.entries.forM (validateParameter host)
  validateTemplate host notice notice.template

/-! ## The text of an announcement -/

/-- The text of a placeholder; a parameter that is missing panics. -/
def valueOf (notice : Countdown φ) (remaining : Nat) (name : Text) : Outcome Error Text :=
  let seconds := Text.decimal (host.seconds remaining)
  let minutes := Text.decimal (host.minutes remaining)
  if name = "remaining".toList then pure seconds
  else if name = "minutes".toList then pure minutes
  else if name = "when".toList then
    if host.seconds remaining = 0 then pure "即将".toList
    else if 60 ≤ host.seconds remaining then
      pure ("将在约 ".toList ++ minutes ++ " 分钟后".toList)
    else pure ("将在".toList ++ seconds ++ "秒后".toList)
  else do
    let value ← unwrap (notice.parameters.get? (.ofList name))
    match value with
    | .string text => pure text.toList
    | value => pure value.render.toList

/-- The loop of `render_countdown` over the template. -/
def renderTemplate (notice : Countdown φ) (remaining : Nat) : Text → Outcome Error Text
  | [] => pure []
  | c :: rest =>
    if c = '{' ∧ rest.head? = some '{' ∨ c = '}' ∧ rest.head? = some '}' then do
      let output ← renderTemplate notice remaining rest.tail
      pure (c :: output)
    else if c = '{' then do
      let value ← valueOf host notice remaining (rest.takeWhile (· ≠ '}'))
      let output ← renderTemplate notice remaining ((rest.dropWhile (· ≠ '}')).drop 1)
      pure (value ++ output)
    else do
      let output ← renderTemplate notice remaining rest
      pure (c :: output)
termination_by text => text.length
decreasing_by
  · simp only [List.length_cons, List.length_tail]
    omega
  · have hdrop := (List.dropWhile_suffix (l := rest) (· ≠ '}')).length_le
    simp only [List.length_cons, List.length_drop]
    omega
  · exact Nat.lt_succ_self _

/-- `render_countdown`; the seconds of a `Duration` are finite and not
negative. -/
def renderCountdown (notice : Countdown φ) (remaining now later : Nat) : Outcome Error Text := do
  validate host notice now later
  renderTemplate host notice remaining notice.template

/-! ## The countdown -/

/-- `/` of unsigned integers -/
def divide (a b : Nat) : Outcome Error Nat :=
  if b = 0 then panics "attempt to divide by zero" else pure (a / b)

def nextNotice (deadline remaining interval : Nat) : Outcome Error Nat := do
  let count ← divide (remaining - 1) interval
  let offset := count * interval
  checkedSub deadline (offset / 1000000000 % 2 ^ 64 * 1000000000 + offset % 1000000000)

/-- How the readings of the clock follow one another, and what the receiver
answers. -/
structure Turns where
  /-- The first reading of the clock. -/
  checked : Nat
  /-- What passes until the second one, which ends the first validation. -/
  paused : Nat
  /-- What passes until the reading that the deadline is computed from. -/
  started : Nat
  /-- What passes until the loop is entered. -/
  entered : Nat
  /-- What passes until the notice is validated for an announcement. -/
  rendered : Nat → Nat
  /-- What passes between the two readings of that validation. -/
  pauses : Nat → Nat
  /-- How long an announcement takes. -/
  latency : Nat → Nat
  /-- How late a sleep ends. -/
  lag : Nat → Nat
  reply : Nat → Except Error Bool

namespace Turns

variable (turns : Turns)

/-- The reading that the deadline is computed from. -/
def origin : Nat := turns.checked + turns.paused + turns.started

/-- What passes in the turns from one on, the sleeps apart. -/
def spent : Nat → Nat → Nat
  | _, 0 => 0
  | turn, count + 1 =>
    turns.rendered turn + turns.pauses turn + turns.latency turn + turns.lag turn +
      spent (turn + 1) count

end Turns

structure Announcement where
  /-- The instant of which the remaining time is announced. -/
  sampled : Nat
  remaining : Nat
  message : Text
  /-- The end of the sleep after it. -/
  wake : Option Nat

structure Run where
  announcements : List Announcement
  /-- The instants to which the notice added its durations. -/
  readings : List Nat
  result : Outcome Error Bool

/-- A run after some readings of the clock. -/
def Run.after (run : Run) (readings : List Nat) : Run :=
  { run with readings := readings ++ run.readings }

/-- The next turn comes not before the end of the sleep. -/
theorem nextNotice_le {deadline remaining interval wake : Nat} (hpos : remaining ≠ 0)
    (h : nextNotice deadline remaining interval = .ok wake) :
    deadline < wake + remaining := by
  unfold nextNotice at h
  obtain ⟨count, hcount, h⟩ := bind_eq_ok.1 h
  obtain ⟨hle, heq⟩ := checkedSub_eq_ok.1 h
  have hoffset : count * interval ≤ remaining - 1 := by
    unfold divide at hcount
    split_ifs at hcount with hzero
    · cases hcount
    · cases hcount
      exact Nat.div_mul_le_self _ _
  have hmod := Nat.mod_le (count * interval / 1000000000) (2 ^ 64)
  have hsplit := Nat.div_add_mod (count * interval) 1000000000
  omega

/-- The loop of `countdown`. -/
def loop (notice : Countdown φ) (turns : Turns) (deadline interval now turn : Nat) : Run :=
  let remaining := deadline - now
  let reading := now + turns.rendered turn
  let readings := [reading, reading + turns.pauses turn]
  match renderCountdown host notice remaining reading (reading + turns.pauses turn) with
  | .error fault => ⟨[], readings, .error fault⟩
  | .ok message =>
    match turns.reply turn with
    | .error error => ⟨[⟨now, remaining, message, none⟩], readings, fail error⟩
    | .ok false => ⟨[⟨now, remaining, message, none⟩], readings, pure false⟩
    | .ok true =>
      if hzero : remaining = 0 then ⟨[⟨now, remaining, message, none⟩], readings, pure true⟩
      else match hwake : nextNotice deadline remaining interval with
        | .error fault => ⟨[⟨now, remaining, message, none⟩], readings, .error fault⟩
        | .ok wake =>
          let rest := loop notice turns deadline interval
            (max (now + turns.latency turn) wake + turns.lag turn) (turn + 1)
          ⟨⟨now, remaining, message, some wake⟩ :: rest.announcements, readings ++ rest.readings,
            rest.result⟩
termination_by deadline - now
decreasing_by
  have hlt := nextNotice_le hzero hwake
  have hmax := Nat.le_max_right (now + turns.latency turn) wake
  omega

/-- The part of `countdown` before its loop: the deadline and the interval. -/
def start (notice : Countdown φ) (turns : Turns) : Outcome Error (Nat × Nat) := do
  validate host notice turns.checked (turns.checked + turns.paused)
  let delay ← orError (host.duration notice.delay) ⟨.internal, "invalid delay", .null⟩
  let interval ← orError (host.duration notice.interval) ⟨.internal, "invalid interval", .null⟩
  let deadline := turns.origin + delay.nanos
  ensure (deadline ≤ host.limit) ⟨.internal, "countdown deadline is out of range", .null⟩
  pure (deadline, interval.nanos)

def countdown (notice : Countdown φ) (turns : Turns) : Run :=
  let readings := [turns.checked, turns.checked + turns.paused, turns.origin]
  match start host notice turns with
  | .error fault => ⟨[], readings, .error fault⟩
  | .ok (deadline, interval) =>
    (loop host notice turns deadline interval (turns.origin + turns.entered) 0).after readings

/-! ## A notice that is valid can be rendered -/

section Render

variable {host} {notice : Countdown φ}

theorem splitOnce_brace {text before after : Text}
    (h : Text.splitOnce (· = '}') text = some (before, after)) :
    text.takeWhile (· ≠ '}') = before ∧ (text.dropWhile (· ≠ '}')).drop 1 = after := by
  induction text generalizing before with
  | nil => cases h
  | cons c rest ih =>
    rw [Text.splitOnce] at h
    by_cases hc : c = '}'
    · rw [if_pos (decide_eq_true hc)] at h
      cases h
      rw [List.takeWhile_cons_of_neg (by simp [hc]), List.dropWhile_cons_of_neg (by simp [hc])]
      exact ⟨rfl, rfl⟩
    · rw [if_neg (fun h => hc (of_decide_eq_true h))] at h
      obtain ⟨parts, hparts, heq⟩ := Option.map_eq_some_iff.1 h
      cases heq
      obtain ⟨htake, hdrop⟩ := ih hparts
      rw [List.takeWhile_cons_of_pos (by simp [hc]), List.dropWhile_cons_of_pos (by simp [hc]),
        htake]
      exact ⟨rfl, hdrop⟩

theorem valueOf_known {name : Text} (h : Known host notice name) (remaining : Nat) :
    (valueOf host notice remaining name).Succeeds := by
  have hname : ∀ word : String, name ≠ word.toList → String.ofList name ≠ word := by
    intro word hne heq
    rw [← heq, String.toList_ofList] at hne
    exact hne rfl
  unfold valueOf
  dsimp only
  split_ifs with hremaining hminutes hwhen hnow hlong
  · exact ⟨_, rfl⟩
  · exact ⟨_, rfl⟩
  · exact ⟨_, rfl⟩
  · exact ⟨_, rfl⟩
  · exact ⟨_, rfl⟩
  · rcases h.2 with hreserved | hparameter
    · rw [reserved, List.mem_cons, List.mem_cons, List.mem_singleton] at hreserved
      rcases hreserved with heq | heq | heq
      · exact absurd heq (hname _ hremaining)
      · exact absurd heq (hname _ hminutes)
      · exact absurd heq (hname _ hwhen)
    · obtain ⟨value, hvalue⟩ := Option.ne_none_iff_exists'.1 hparameter
      rw [hvalue]
      cases value <;> exact ⟨_, rfl⟩

/-- A placeholder that was let through has a value. -/
theorem renderTemplate_valid {text : Text} (h : validateTemplate host notice text = .ok ())
    (remaining : Nat) : (renderTemplate host notice remaining text).Succeeds := by
  induction hlength : text.length using Nat.strong_induction_on generalizing text with
  | _ length ih =>
    subst hlength
    cases text with
    | nil =>
      rw [renderTemplate]
      exact ⟨_, rfl⟩
    | cons c rest =>
      have htail : rest.tail.length < (c :: rest).length := by
        rw [List.length_cons, List.length_tail]
        omega
      rw [validateTemplate] at h
      rw [renderTemplate]
      split_ifs at h with hopen hdouble hclose
      · obtain ⟨output, houtput⟩ := ih _ htail h rfl
        rw [if_pos (.inl ⟨hopen, hdouble⟩), houtput]
        exact ⟨_, rfl⟩
      · have hsingle : ¬(c = '{' ∧ rest.head? = some '{' ∨ c = '}' ∧ rest.head? = some '}') := by
          rintro (⟨_, hhead⟩ | ⟨hclose, _⟩)
          · exact hdouble hhead
          · rw [hopen] at hclose
            exact absurd hclose (by decide)
        rw [if_neg hsingle, if_pos hopen]
        split at h
        · cases h
        · next name after hsplit =>
          obtain ⟨_, hknown, h⟩ := bind_eq_ok.1 h
          obtain ⟨htake, hdrop⟩ := splitOnce_brace hsplit
          obtain ⟨value, hvalue⟩ := valueOf_known (ensure_eq_ok.1 hknown) remaining
          obtain ⟨output, houtput⟩ := ih _ (Nat.lt_succ_of_lt (splitOnce_length hsplit)) h rfl
          rw [htake, hdrop, hvalue, ok_bind, houtput]
          exact ⟨_, rfl⟩
      · obtain ⟨_, hhead, h⟩ := bind_eq_ok.1 h
        obtain ⟨output, houtput⟩ := ih _ htail h rfl
        rw [if_pos (.inr ⟨hclose, ensure_eq_ok.1 hhead⟩), houtput]
        exact ⟨_, rfl⟩
      · obtain ⟨output, houtput⟩ := ih _ (Nat.lt_succ_self _) h rfl
        rw [if_neg (by tauto), if_neg hopen, houtput]
        exact ⟨_, rfl⟩

theorem validate_template {now later : Nat} (h : validate host notice now later = .ok ()) :
    validateTemplate host notice notice.template = .ok () := by
  unfold validate at h
  obtain ⟨_, _, h⟩ := bind_eq_ok.1 h
  obtain ⟨_, _, h⟩ := bind_eq_ok.1 h
  obtain ⟨_, _, h⟩ := bind_eq_ok.1 h
  obtain ⟨_, _, h⟩ := bind_eq_ok.1 h
  exact h

theorem renderCountdown_valid {now later : Nat} (h : validate host notice now later = .ok ())
    (remaining : Nat) : (renderCountdown host notice remaining now later).Succeeds := by
  rw [renderCountdown, h, ok_bind]
  exact renderTemplate_valid (validate_template h) remaining

theorem checkedDuration_eq {value : φ} {duration : Duration}
    (h : host.duration value = some duration) (field : String) (now : Nat) :
    checkedDuration host field value now =
      ensure (now + duration.nanos ≤ host.limit) (invalid field "duration is out of range") >>=
        fun _ => pure duration := by
  unfold checkedDuration
  rw [h]
  by_cases hlimit : now + duration.nanos ≤ host.limit
  · rw [ensure_of hlimit, Option.filter_some, if_pos (decide_eq_true hlimit)]
    rfl
  · rw [ensure_of_not hlimit, Option.filter_some, if_neg (by simpa using hlimit)]
    rfl

/-- A notice that was valid once is valid again as long as its durations fit the clock. -/
theorem validate_again {now later : Nat} {delay length : Duration}
    (h : validate host notice now later = .ok ())
    (hdelay : host.duration notice.delay = some delay)
    (hlength : host.duration notice.interval = some length) (first second : Nat) :
    validate host notice first second =
      ensure (first + delay.nanos ≤ host.limit)
          (invalid "notice.delay" "duration is out of range") >>=
        fun _ => ensure (second + length.nanos ≤ host.limit)
          (invalid "notice.interval" "duration is out of range") := by
  unfold validate nonnegative positiveDuration at h ⊢
  obtain ⟨_, htext, h⟩ := bind_eq_ok.1 h
  obtain ⟨_, hnumber, h⟩ := bind_eq_ok.1 h
  obtain ⟨_, hfinite, hnumber⟩ := bind_eq_ok.1 hnumber
  obtain ⟨_, hsign, _⟩ := bind_eq_ok.1 hnumber
  obtain ⟨_, hpositive, h⟩ := bind_eq_ok.1 h
  obtain ⟨_, hchecked, hpositive⟩ := bind_eq_ok.1 hpositive
  obtain ⟨duration, hduration, hpositive⟩ := bind_eq_ok.1 hpositive
  obtain ⟨_, hnonzero, _⟩ := bind_eq_ok.1 hpositive
  obtain ⟨_, hparameters, htemplate⟩ := bind_eq_ok.1 h
  have hsame : duration = length := by
    unfold checkedDuration at hduration
    rw [orError_eq_ok, Option.filter_eq_some_iff, hlength] at hduration
    exact (Option.some.inj hduration.1).symm
  rw [hsame] at hnonzero
  rw [ensure_of (ensure_eq_ok.1 htext), ok_bind, ensure_of (ensure_eq_ok.1 hfinite), ok_bind,
    ensure_of (ensure_eq_ok.1 hsign), ok_bind, ensure_of (ensure_eq_ok.1 hchecked), ok_bind,
    checkedDuration_eq hdelay, checkedDuration_eq hlength, hparameters, htemplate]
  by_cases hfirst : first + delay.nanos ≤ host.limit
  · by_cases hsecond : second + length.nanos ≤ host.limit
    · rw [ensure_of hfirst, ensure_of hsecond]
      show (ensure (length.nanos ≠ 0) _ >>= fun _ => pure length) >>= _ = _
      rw [hnonzero]
      rfl
    · rw [ensure_of hfirst, ensure_of_not hsecond]
      rfl
  · rw [ensure_of_not hfirst]
    rfl

/-- The only way in which a notice that was valid once cannot be rendered. -/
theorem renderCountdown_again {now later first second remaining : Nat} {delay length : Duration}
    {fault : Fault Error} (h : validate host notice now later = .ok ())
    (hdelay : host.duration notice.delay = some delay)
    (hlength : host.duration notice.interval = some length)
    (hrender : renderCountdown host notice remaining first second = .error fault) :
    (fault = .error (invalid "notice.delay" "duration is out of range") ∨
      fault = .error (invalid "notice.interval" "duration is out of range")) ∧
      ∃ reading ∈ [first, second], host.limit < reading + max delay.nanos length.nanos := by
  have hagain := validate_again h hdelay hlength first second
  by_cases hfirst : first + delay.nanos ≤ host.limit
  · by_cases hsecond : second + length.nanos ≤ host.limit
    · rw [ensure_of hfirst, ok_bind, ensure_of hsecond] at hagain
      obtain ⟨message, hmessage⟩ := renderCountdown_valid hagain remaining
      rw [hmessage] at hrender
      cases hrender
    · rw [ensure_of hfirst, ok_bind, ensure_of_not hsecond] at hagain
      rw [renderCountdown, hagain] at hrender
      cases hrender
      exact ⟨Or.inr rfl, second, by simp, by omega⟩
  · rw [ensure_of_not hfirst, fail_bind] at hagain
    rw [renderCountdown, hagain] at hrender
    cases hrender
    exact ⟨Or.inl rfl, first, by simp, by omega⟩

theorem validateTemplate_quiet (text : Text) : (validateTemplate host notice text).Quiet := by
  induction hlength : text.length using Nat.strong_induction_on generalizing text with
  | _ length ih =>
    subst hlength
    cases text with
    | nil =>
      rw [validateTemplate]
      exact quiet_ok ()
    | cons c rest =>
      have htail : rest.tail.length < (c :: rest).length := by
        rw [List.length_cons, List.length_tail]
        omega
      rw [validateTemplate]
      split_ifs
      · exact ih _ htail _ rfl
      · split
        · exact quiet_fail _
        · next name after hsplit =>
          refine (quiet_ensure _ _).bind fun _ _ => ?_
          exact ih _ (Nat.lt_succ_of_lt (splitOnce_length hsplit)) _ rfl
      · exact (quiet_ensure _ _).bind fun _ _ => ih _ htail _ rfl
      · exact ih _ (Nat.lt_succ_self _) _ rfl

theorem checkedDuration_quiet (field : String) (value : φ) (now : Nat) :
    (checkedDuration host field value now).Quiet :=
  quiet_orError _ _

theorem validate_quiet (now later : Nat) : (validate host notice now later).Quiet := by
  unfold validate nonnegative positiveDuration
  refine (quiet_ensure _ _).bind fun _ _ => ?_
  refine Quiet.bind ?_ fun _ _ => Quiet.bind ?_ fun _ _ => Quiet.bind ?_ fun _ _ => ?_
  · refine (quiet_ensure _ _).bind fun _ _ => (quiet_ensure _ _).bind fun _ _ => ?_
    exact (checkedDuration_quiet _ _ _).bind fun _ _ => quiet_ok ()
  · refine (quiet_ensure _ _).bind fun _ _ => (checkedDuration_quiet _ _ _).bind fun _ _ => ?_
    exact (quiet_ensure _ _).bind fun _ _ => quiet_ok _
  · refine quiet_forM fun parameter _ => ?_
    exact (quiet_ensure _ _).bind fun _ _ => quiet_ensure _ _
  · exact validateTemplate_quiet notice.template

theorem renderCountdown_quiet (remaining now later : Nat) :
    (renderCountdown host notice remaining now later).Quiet := by
  refine (validate_quiet now later).bind fun _ hvalid => ?_
  obtain ⟨message, hmessage⟩ := renderTemplate_valid (validate_template hvalid) remaining
  rw [hmessage]
  exact quiet_ok message

end Render

/-! ## The turns of the loop -/

/-- The next announcement is due at a multiple of the interval before the
deadline. -/
theorem nextNotice_eq {deadline remaining interval : Nat} (hinterval : 0 < interval)
    (hle : remaining ≤ deadline) (hbound : remaining < 2 ^ 64 * 1000000000) :
    nextNotice deadline remaining interval =
      .ok (deadline - (remaining - 1) / interval * interval) := by
  have hoffset : (remaining - 1) / interval * interval ≤ remaining - 1 :=
    Nat.div_mul_le_self _ _
  have hseconds : (remaining - 1) / interval * interval / 1000000000 < 2 ^ 64 := by
    rw [Nat.div_lt_iff_lt_mul (by decide)]
    omega
  have hsplit := Nat.div_add_mod ((remaining - 1) / interval * interval) 1000000000
  have hdivide : divide (remaining - 1) interval = .ok ((remaining - 1) / interval) :=
    if_neg (Nat.ne_of_gt hinterval)
  rw [nextNotice, hdivide, ok_bind]
  dsimp only
  rw [Nat.mod_eq_of_lt hseconds, checkedSub_eq_ok]
  constructor
  · omega
  · congr 1
    omega

/-- What holds of the announcements that are made from an instant on. -/
structure Counted (deadline interval left : Nat) (run : Run) : Prop where
  decreasing : (run.announcements.map Announcement.remaining).Pairwise (· > ·)
  /-- The time until the deadline is announced. -/
  remaining : ∀ a ∈ run.announcements, a.remaining = deadline - a.sampled ∧ a.remaining ≤ left
  wakes : ∀ a ∈ run.announcements, ∀ wake ∈ a.wake, a.sampled < wake ∧
    ∃ count, wake + count * interval = deadline
  /-- As many intervals as there are, rounded up, and one more. -/
  count : run.announcements.length ≤ (left + interval - 1) / interval + 1
  quiet : run.result.Quiet

theorem Counted.mono {deadline interval left left' : Nat} {run : Run}
    (h : Counted deadline interval left run) (hle : left ≤ left') :
    Counted deadline interval left' run where
  decreasing := h.decreasing
  remaining := fun a ha => ⟨(h.remaining a ha).1, (h.remaining a ha).2.trans hle⟩
  wakes := h.wakes
  count := h.count.trans (Nat.succ_le_succ (Nat.div_le_div_right (by omega)))
  quiet := h.quiet

/-- The run goes to its end. -/
structure Finished (run : Run) : Prop where
  result : run.result = .ok true
  last : ∃ earlier last, run.announcements = earlier ++ [last] ∧ last.remaining = 0 ∧
    ∀ a ∈ earlier, a.remaining ≠ 0

/-- The run is broken off because the clock ends too soon after one of its readings: the deadline has
no instant, or the notice is not valid any more when a text is rendered. -/
structure OutOfRange (limit : Nat) (delay interval : Duration) (run : Run) : Prop where
  result : run.result = fail (invalid "notice.delay" "duration is out of range") ∨
    run.result = fail (invalid "notice.interval" "duration is out of range") ∨
    run.result = fail ⟨.internal, "countdown deadline is out of range", .null⟩
  reading : ∃ reading ∈ run.readings, limit < reading + max delay.nanos interval.nanos
  announcements : ∀ a ∈ run.announcements, a.remaining ≠ 0

section Turn

variable {host} {notice : Countdown φ} {turns : Turns} {deadline interval now turn : Nat}

/-- A run without announcements. -/
theorem counted_nothing {left : Nat} {readings : List Nat} {fault : Fault Error}
    (hquiet : Quiet (Except.error fault : Outcome Error Bool)) :
    Counted deadline interval left ⟨[], readings, .error fault⟩ where
  decreasing := List.Pairwise.nil
  remaining := fun _ ha => absurd ha List.not_mem_nil
  wakes := fun _ ha => absurd ha List.not_mem_nil
  count := Nat.zero_le _
  quiet := hquiet

/-- A run of one announcement. -/
theorem counted_last {message : Text} {readings : List Nat} {result : Outcome Error Bool}
    (hquiet : result.Quiet) :
    Counted deadline interval (deadline - now)
      ⟨[⟨now, deadline - now, message, none⟩], readings, result⟩ where
  decreasing := List.pairwise_singleton _ _
  remaining := by
    intro a ha
    rw [List.mem_singleton.1 ha]
    exact ⟨rfl, le_refl _⟩
  wakes := by
    intro a ha wake hwake
    rw [List.mem_singleton.1 ha] at hwake
    cases hwake
  count := by
    rw [List.length_singleton]
    exact Nat.le_add_left 1 _
  quiet := hquiet

/-- The rest begins within the last multiple of the interval, so that it has an interval less. -/
theorem intervals_next {next : Nat} (hinterval : 0 < interval) (hpos : deadline - now ≠ 0)
    (hnext : deadline - (deadline - now - 1) / interval * interval ≤ next) :
    (deadline - next + interval - 1) / interval + 1 ≤ (deadline - now + interval - 1) / interval := by
  have hoffset : (deadline - now - 1) / interval * interval ≤ deadline - now - 1 :=
    Nat.div_mul_le_self _ _
  have hmono : (deadline - next + interval - 1) / interval ≤ (deadline - now - 1) / interval := by
    rw [Nat.div_le_iff_le_mul_add_pred hinterval]
    rw [Nat.mul_comm]
    omega
  have hup : (deadline - now + interval - 1) / interval =
      (deadline - now - 1) / interval + 1 := by
    rw [← Nat.add_div_right _ hinterval]
    congr 1
    omega
  omega

theorem counted_next {message : Text} {readings : List Nat} {next : Nat} {rest : Run}
    (hinterval : 0 < interval) (hpos : deadline - now ≠ 0)
    (hnext : deadline - (deadline - now - 1) / interval * interval ≤ next)
    (hrest : Counted deadline interval (deadline - next) rest) :
    Counted deadline interval (deadline - now)
      ⟨⟨now, deadline - now, message,
        some (deadline - (deadline - now - 1) / interval * interval)⟩ :: rest.announcements,
        readings, rest.result⟩ := by
  have hoffset : (deadline - now - 1) / interval * interval ≤ deadline - now - 1 :=
    Nat.div_mul_le_self _ _
  have hleft : deadline - next ≤ (deadline - now - 1) / interval * interval := by omega
  refine ⟨?_, ?_, ?_, ?_, hrest.quiet⟩
  · rw [List.map_cons, List.pairwise_cons]
    refine ⟨fun remaining hremaining => ?_, hrest.decreasing⟩
    obtain ⟨a, ha, rfl⟩ := List.mem_map.1 hremaining
    have hle := (hrest.remaining a ha).2
    show a.remaining < deadline - now
    omega
  · intro a ha
    rcases List.mem_cons.1 ha with rfl | ha
    · exact ⟨rfl, le_refl _⟩
    · obtain ⟨heq, hle⟩ := hrest.remaining a ha
      exact ⟨heq, by omega⟩
  · intro a ha wake hwake
    rcases List.mem_cons.1 ha with rfl | ha
    · cases hwake
      constructor
      · show now < _
        omega
      · exact ⟨_, Nat.sub_add_cancel (by omega)⟩
    · exact hrest.wakes a ha wake hwake
  · have hcount := hrest.count
    have hless := intervals_next hinterval hpos hnext
    rw [List.length_cons]
    omega

/-- The two readings of a turn. -/
def readingsOf (turns : Turns) (now turn : Nat) : List Nat :=
  [now + turns.rendered turn, now + turns.rendered turn + turns.pauses turn]

/-- A turn that is not the last one. -/
theorem loop_next {message : Text} (hinterval : 0 < interval)
    (hbound : deadline - now < 2 ^ 64 * 1000000000)
    (hmessage : renderCountdown host notice (deadline - now) (now + turns.rendered turn)
      (now + turns.rendered turn + turns.pauses turn) = .ok message)
    (hreply : turns.reply turn = .ok true) (hpos : deadline - now ≠ 0) :
    ∃ next, deadline - (deadline - now - 1) / interval * interval ≤ next ∧
      next ≤ max now deadline + turns.latency turn + turns.lag turn ∧
      loop host notice turns deadline interval now turn =
        let rest := loop host notice turns deadline interval next (turn + 1)
        ⟨⟨now, deadline - now, message,
          some (deadline - (deadline - now - 1) / interval * interval)⟩ :: rest.announcements,
          readingsOf turns now turn ++ rest.readings, rest.result⟩ := by
  have hnext := nextNotice_eq hinterval (Nat.sub_le deadline now) hbound
  refine ⟨max (now + turns.latency turn) (deadline - (deadline - now - 1) / interval * interval) +
    turns.lag turn, (Nat.le_max_right _ _).trans (Nat.le_add_right _ _), by omega, ?_⟩
  rw [loop, hmessage, hreply]
  dsimp only
  rw [dif_neg hpos]
  split
  · next fault hfault =>
    rw [hnext] at hfault
    cases hfault
  · next wake hwake =>
    rw [hnext] at hwake
    cases hwake
    rfl

/-- What a turn does: its text has no rendering, or it is the last one, or the loop goes on. -/
theorem loop_cases (host : Host φ) (notice : Countdown φ) (turns : Turns) (turn : Nat)
    (hinterval : 0 < interval) (hbound : deadline - now < 2 ^ 64 * 1000000000) :
    (∃ fault, renderCountdown host notice (deadline - now) (now + turns.rendered turn)
        (now + turns.rendered turn + turns.pauses turn) = .error fault ∧
      loop host notice turns deadline interval now turn =
        ⟨[], readingsOf turns now turn, .error fault⟩) ∨
    (∃ message result, Quiet result ∧
      (turns.reply turn = .ok true → deadline - now = 0 ∧ result = .ok true) ∧
      loop host notice turns deadline interval now turn =
        ⟨[⟨now, deadline - now, message, none⟩], readingsOf turns now turn, result⟩) ∨
    ∃ message next, deadline - now ≠ 0 ∧
      deadline - (deadline - now - 1) / interval * interval ≤ next ∧
      next ≤ max now deadline + turns.latency turn + turns.lag turn ∧
      loop host notice turns deadline interval now turn =
        let rest := loop host notice turns deadline interval next (turn + 1)
        ⟨⟨now, deadline - now, message,
          some (deadline - (deadline - now - 1) / interval * interval)⟩ :: rest.announcements,
          readingsOf turns now turn ++ rest.readings, rest.result⟩ := by
  cases hmessage : renderCountdown host notice (deadline - now) (now + turns.rendered turn)
      (now + turns.rendered turn + turns.pauses turn) with
  | error fault =>
    refine Or.inl ⟨fault, rfl, ?_⟩
    rw [loop, hmessage]
    rfl
  | ok message =>
    right
    cases hreply : turns.reply turn with
    | error error =>
      refine Or.inl ⟨message, fail error, quiet_fail error, nofun, ?_⟩
      rw [loop, hmessage, hreply]
      rfl
    | ok goes =>
      cases goes with
      | false =>
        refine Or.inl ⟨message, pure false, quiet_ok false, nofun, ?_⟩
        rw [loop, hmessage, hreply]
        rfl
      | true =>
        by_cases hzero : deadline - now = 0
        · refine Or.inl ⟨message, pure true, quiet_ok true, fun _ => ⟨hzero, rfl⟩, ?_⟩
          rw [loop, hmessage, hreply]
          dsimp only
          rw [dif_pos hzero]
          rfl
        · obtain ⟨next, hle, hlate, heq⟩ := loop_next hinterval hbound hmessage hreply hzero
          exact Or.inr ⟨message, next, hzero, hle, hlate, heq⟩

/-- Less time is left at the next turn. -/
theorem left_next {next : Nat} (hpos : deadline - now ≠ 0)
    (hle : deadline - (deadline - now - 1) / interval * interval ≤ next) :
    deadline - next < deadline - now := by
  have hoffset : (deadline - now - 1) / interval * interval ≤ deadline - now - 1 :=
    Nat.div_mul_le_self _ _
  omega

theorem loop_counted (hinterval : 0 < interval) (hbound : deadline - now < 2 ^ 64 * 1000000000) :
    Counted deadline interval (deadline - now)
      (loop host notice turns deadline interval now turn) := by
  induction hleft : deadline - now using Nat.strong_induction_on generalizing now turn with
  | _ left ih =>
    rw [← hleft]
    rcases loop_cases host notice turns turn hinterval hbound with
      ⟨fault, hmessage, heq⟩ | ⟨message, result, hquiet, _, heq⟩ |
      ⟨message, next, hpos, hle, _, heq⟩
    · have hquiet : Quiet (Except.error fault : Outcome Error Text) :=
        hmessage ▸ renderCountdown_quiet _ _ _
      rw [heq]
      exact counted_nothing fun text herror =>
        hquiet text (congrArg Except.error (Except.error.inj herror))
    · rw [heq]
      exact counted_last hquiet
    · have hless := left_next hpos hle
      rw [heq]
      exact counted_next hinterval hpos hle (ih _ (by omega) (by omega) rfl)

theorem spent_mono (turns : Turns) {count more : Nat} (h : count ≤ more) (turn : Nat) :
    turns.spent turn count ≤ turns.spent turn more := by
  induction count generalizing turn more with
  | zero => exact Nat.zero_le _
  | succ count ih =>
    cases more with
    | zero => omega
    | succ more =>
      have hrest := ih (Nat.le_of_succ_le_succ h) (turn + 1)
      rw [Turns.spent, Turns.spent]
      omega

/-- The readings of a turn come before its announcement is over. -/
theorem readingsOf_le {count : Nat} :
    ∀ reading ∈ readingsOf turns now turn, reading ≤ now + turns.spent turn (count + 1) := by
  intro reading hreading
  rw [Turns.spent]
  rcases List.mem_cons.1 hreading with rfl | hreading
  · omega
  · rw [List.mem_singleton.1 hreading]
    omega

/-- Until when the loop reads the clock. -/
theorem loop_readings (hinterval : 0 < interval) (hbound : deadline - now < 2 ^ 64 * 1000000000) :
    ∀ reading ∈ (loop host notice turns deadline interval now turn).readings,
      reading ≤ max now deadline +
        turns.spent turn ((deadline - now + interval - 1) / interval + 1) := by
  induction hleft : deadline - now using Nat.strong_induction_on generalizing now turn with
  | _ left ih =>
    rw [← hleft]
    have hown : ∀ reading ∈ readingsOf turns now turn, reading ≤ max now deadline +
        turns.spent turn ((deadline - now + interval - 1) / interval + 1) := fun reading hreading =>
      (readingsOf_le reading hreading).trans (Nat.add_le_add_right (Nat.le_max_left _ _) _)
    rcases loop_cases host notice turns turn hinterval hbound with
      ⟨fault, _, heq⟩ | ⟨message, result, _, _, heq⟩ |
      ⟨message, next, hpos, hle, hlate, heq⟩
    · rw [heq]
      exact hown
    · rw [heq]
      exact hown
    · have hshorter := left_next hpos hle
      have hless := intervals_next hinterval hpos hle
      rw [heq]
      intro reading hreading
      rcases List.mem_append.1 hreading with hreading | hreading
      · exact hown reading hreading
      · have hrest : reading ≤ max next deadline +
            turns.spent (turn + 1) ((deadline - next + interval - 1) / interval + 1) :=
          ih (deadline - next) (by omega) (by omega) rfl reading hreading
        have hmono := spent_mono turns hless (turn + 1)
        rw [Turns.spent]
        omega

/-- When the receiver goes along, the loop goes to its end unless the notice does not fit the clock
any more at one of its readings. -/
theorem loop_ends {delay length : Duration} {first second : Nat}
    (hvalid : validate host notice first second = .ok ())
    (hdelay : host.duration notice.delay = some delay)
    (hlength : host.duration notice.interval = some length) (hinterval : 0 < interval)
    (hbound : deadline - now < 2 ^ 64 * 1000000000)
    (hreply : ∀ turn, turns.reply turn = .ok true) :
    Finished (loop host notice turns deadline interval now turn) ∨
      OutOfRange host.limit delay length (loop host notice turns deadline interval now turn) := by
  induction hleft : deadline - now using Nat.strong_induction_on generalizing now turn with
  | _ left ih =>
    rcases loop_cases host notice turns turn hinterval hbound with
      ⟨fault, hmessage, heq⟩ | ⟨message, result, _, hlast, heq⟩ |
      ⟨message, next, hpos, hle, _, heq⟩
    · right
      rw [heq]
      obtain ⟨hfault, hlate⟩ := renderCountdown_again hvalid hdelay hlength hmessage
      refine ⟨?_, hlate, fun a ha => absurd ha List.not_mem_nil⟩
      rcases hfault with rfl | rfl
      · exact Or.inl rfl
      · exact Or.inr (Or.inl rfl)
    · left
      obtain ⟨hzero, hresult⟩ := hlast (hreply turn)
      rw [heq]
      exact ⟨hresult, [], _, rfl, hzero, by simp⟩
    · have hless := left_next hpos hle
      rw [heq]
      rcases ih (deadline - next) (by omega) (by omega) rfl with hrest | hrest
      · left
        obtain ⟨earlier, last, hannounced, hlast, hearlier⟩ := hrest.last
        let first : Announcement := ⟨now, deadline - now, message,
          some (deadline - (deadline - now - 1) / interval * interval)⟩
        refine ⟨hrest.result, first :: earlier, last, ?_, hlast, ?_⟩
        · show first :: (loop host notice turns deadline interval next (turn + 1)).announcements = _
          rw [hannounced, List.cons_append]
        · rw [List.forall_mem_cons]
          exact ⟨hpos, hearlier⟩
      · right
        obtain ⟨reading, hreading, hlate⟩ := hrest.reading
        refine ⟨hrest.result, ⟨reading, List.mem_append_right _ hreading, hlate⟩, ?_⟩
        rw [List.forall_mem_cons]
        exact ⟨hpos, hrest.announcements⟩

/-- The notice is refused at the second announcement when the first wake comes too late for it. -/
theorem loop_breaks_off {delay length : Duration}
    (hvalid : validate host notice (now + turns.rendered turn)
      (now + turns.rendered turn + turns.pauses turn) = .ok ())
    (hdelay : host.duration notice.delay = some delay)
    (hlength : host.duration notice.interval = some length) (hinterval : 0 < interval)
    (hbound : deadline - now < 2 ^ 64 * 1000000000) (hreply : turns.reply turn = .ok true)
    (hpos : deadline - now ≠ 0)
    (hlate : host.limit < deadline - (deadline - now - 1) / interval * interval + delay.nanos) :
    (loop host notice turns deadline interval now turn).result =
      fail (invalid "notice.delay" "duration is out of range") := by
  obtain ⟨message, hmessage⟩ := renderCountdown_valid hvalid (deadline - now)
  obtain ⟨next, hnext, _, heq⟩ := loop_next hinterval hbound hmessage hreply hpos
  have hagain := validate_again hvalid hdelay hlength (next + turns.rendered (turn + 1))
    (next + turns.rendered (turn + 1) + turns.pauses (turn + 1))
  rw [ensure_of_not (by omega), fail_bind] at hagain
  rw [heq]
  dsimp only
  rw [loop, renderCountdown, hagain]
  rfl

end Turn

/-! ## The whole countdown -/

/-- A notice that is valid has its durations. -/
theorem validate_durations {host : Host φ} {notice : Countdown φ} {now later : Nat}
    (h : validate host notice now later = .ok ()) : ∃ delay interval,
      host.duration notice.delay = some delay ∧ host.duration notice.interval = some interval ∧
      0 < interval.nanos := by
  unfold validate nonnegative positiveDuration checkedDuration at h
  obtain ⟨_, _, h⟩ := bind_eq_ok.1 h
  obtain ⟨_, hdelay, h⟩ := bind_eq_ok.1 h
  obtain ⟨_, hinterval, _⟩ := bind_eq_ok.1 h
  obtain ⟨_, _, hdelay⟩ := bind_eq_ok.1 hdelay
  obtain ⟨_, _, hdelay⟩ := bind_eq_ok.1 hdelay
  obtain ⟨delay, hdelay, _⟩ := bind_eq_ok.1 hdelay
  obtain ⟨_, _, hinterval⟩ := bind_eq_ok.1 hinterval
  obtain ⟨interval, hduration, hinterval⟩ := bind_eq_ok.1 hinterval
  obtain ⟨_, hpos, _⟩ := bind_eq_ok.1 hinterval
  rw [orError_eq_ok, Option.filter_eq_some_iff] at hdelay hduration
  exact ⟨delay, interval, hdelay.1, hduration.1, Nat.pos_of_ne_zero (ensure_eq_ok.1 hpos)⟩

/-- No reading of the clock comes after this one, whatever the turns take. -/
def Turns.latest (turns : Turns) (delay interval : Duration) : Nat :=
  turns.origin + max turns.entered delay.nanos +
    turns.spent 0 ((delay.nanos + interval.nanos - 1) / interval.nanos + 1)

section Whole

variable {host : Host φ} {notice : Countdown φ} {turns : Turns} {delay interval : Duration}

/-- A valid notice is counted down in its loop, unless its deadline has no instant. -/
theorem countdown_cases
    (h : validate host notice turns.checked (turns.checked + turns.paused) = .ok ())
    (hdelay : host.duration notice.delay = some delay)
    (hinterval : host.duration notice.interval = some interval) :
    turns.origin + delay.nanos ≤ host.limit ∧ countdown host notice turns =
      (loop host notice turns (turns.origin + delay.nanos) interval.nanos
        (turns.origin + turns.entered) 0).after
          [turns.checked, turns.checked + turns.paused, turns.origin] ∨
    host.limit < turns.origin + delay.nanos ∧ countdown host notice turns =
      ⟨[], [turns.checked, turns.checked + turns.paused, turns.origin],
        fail ⟨.internal, "countdown deadline is out of range", .null⟩⟩ := by
  have hstart : start host notice turns =
      ensure (turns.origin + delay.nanos ≤ host.limit)
          ⟨.internal, "countdown deadline is out of range", .null⟩ >>=
        fun _ => pure (turns.origin + delay.nanos, interval.nanos) := by
    rw [start, h, ok_bind, hdelay, hinterval]
    rfl
  by_cases hlimit : turns.origin + delay.nanos ≤ host.limit
  · left
    rw [ensure_of hlimit, ok_bind] at hstart
    rw [countdown, hstart]
    exact ⟨hlimit, rfl⟩
  · right
    rw [ensure_of_not hlimit, fail_bind] at hstart
    rw [countdown, hstart]
    exact ⟨Nat.lt_of_not_le hlimit, rfl⟩

theorem countdown_readings
    (h : validate host notice turns.checked (turns.checked + turns.paused) = .ok ())
    (hdelay : host.duration notice.delay = some delay)
    (hinterval : host.duration notice.interval = some interval) (hpos : 0 < interval.nanos) :
    ∀ reading ∈ (countdown host notice turns).readings,
      reading ≤ turns.latest delay interval := by
  have hfirst : ∀ reading ∈ [turns.checked, turns.checked + turns.paused, turns.origin],
      reading ≤ turns.latest delay interval := by
    intro reading hreading
    have horigin : reading ≤ turns.origin := by
      unfold Turns.origin at hreading ⊢
      simp only [List.mem_cons, List.not_mem_nil, or_false] at hreading
      omega
    unfold Turns.latest
    omega
  rcases countdown_cases h hdelay hinterval with ⟨_, heq⟩ | ⟨_, heq⟩
  · rw [heq]
    intro reading hreading
    rcases List.mem_append.1 hreading with hreading | hreading
    · exact hfirst reading hreading
    · have hbound := delay.bound
      have hle := loop_readings hpos (by omega) reading hreading
      have hmono : turns.spent 0 ((turns.origin + delay.nanos - (turns.origin + turns.entered) +
            interval.nanos - 1) / interval.nanos + 1) ≤
          turns.spent 0 ((delay.nanos + interval.nanos - 1) / interval.nanos + 1) := by
        apply spent_mono
        exact Nat.succ_le_succ (Nat.div_le_div_right (by omega))
      unfold Turns.latest
      omega
  · rw [heq]
    exact hfirst

end Whole

/-- Whatever the announcements take, the countdown of a valid notice announces less and less time and
sleeps until a multiple of the interval before the deadline.  When the receiver goes along, it ends
with the only announcement of no time, unless the clock ends before the deadline or too soon after a
reading; where the clock has room for every reading, it does so. -/
theorem countdown_counted (host : Host φ) (notice : Countdown φ) (turns : Turns)
    (h : validate host notice turns.checked (turns.checked + turns.paused) = .ok ()) :
    ∃ delay interval, host.duration notice.delay = some delay ∧
      host.duration notice.interval = some interval ∧
      Counted (turns.origin + delay.nanos) interval.nanos delay.nanos
        (countdown host notice turns) ∧
      ((∀ turn, turns.reply turn = .ok true) →
        (Finished (countdown host notice turns) ∨
          OutOfRange host.limit delay interval (countdown host notice turns)) ∧
        (turns.latest delay interval + max delay.nanos interval.nanos ≤ host.limit →
          Finished (countdown host notice turns))) := by
  obtain ⟨delay, interval, hdelay, hinterval, hpos⟩ := validate_durations h
  have hbound := delay.bound
  refine ⟨delay, interval, hdelay, hinterval, ?_, fun hreply => ?_⟩
  · rcases countdown_cases h hdelay hinterval with ⟨_, heq⟩ | ⟨_, heq⟩
    · have hloop : Counted (turns.origin + delay.nanos) interval.nanos _
          (loop host notice turns (turns.origin + delay.nanos) interval.nanos
            (turns.origin + turns.entered) 0) := loop_counted hpos (by omega)
      have hleft : turns.origin + delay.nanos - (turns.origin + turns.entered) ≤ delay.nanos := by
        omega
      have hcounted := hloop.mono hleft
      rw [heq]
      exact ⟨hcounted.decreasing, hcounted.remaining, hcounted.wakes, hcounted.count,
        hcounted.quiet⟩
    · rw [heq]
      exact counted_nothing (quiet_fail _)
  · have hends : Finished (countdown host notice turns) ∨
        OutOfRange host.limit delay interval (countdown host notice turns) := by
      rcases countdown_cases h hdelay hinterval with ⟨_, heq⟩ | ⟨hlimit, heq⟩
      · rw [heq]
        have hleft : turns.origin + delay.nanos - (turns.origin + turns.entered) <
            2 ^ 64 * 1000000000 := by omega
        rcases loop_ends h hdelay hinterval hpos hleft hreply with hfinished | hlate
        · exact Or.inl ⟨hfinished.result, hfinished.last⟩
        · obtain ⟨reading, hreading, hpast⟩ := hlate.reading
          exact Or.inr ⟨hlate.result, ⟨reading, List.mem_append_right _ hreading, hpast⟩,
            hlate.announcements⟩
      · rw [heq]
        refine Or.inr ⟨Or.inr (Or.inr rfl), ⟨turns.origin, by simp, by omega⟩, ?_⟩
        exact fun a ha => absurd ha List.not_mem_nil
    refine ⟨hends, fun hroom => ?_⟩
    rcases hends with hfinished | hlate
    · exact hfinished
    · obtain ⟨reading, hreading, hpast⟩ := hlate.reading
      have hle := countdown_readings h hdelay hinterval hpos reading hreading
      omega

/-- Durations of whole seconds, and a clock whose seconds are an `i64`. -/
def sampleHost : Host Nat where
  isFinite _ := true
  isNegative _ := false
  isAtMostZero value := value = 0
  duration value := if h : value < 2 ^ 64 then some ⟨value * 1000000000, by omega⟩ else none
  isFiniteNumber _ := true
  isAlphabetic c := c.isAlpha
  isAlphanumeric c := c.isAlphanum
  limit := 2 ^ 63 * 1000000000 - 1
  seconds remaining := (remaining + 999999999) / 1000000000
  minutes remaining := (remaining + 59999999999) / 60000000000

theorem sampleHost_duration {value : Nat} (h : value < 2 ^ 64) :
    sampleHost.duration value = some ⟨value * 1000000000, by omega⟩ := dif_pos h

/-- A notice that is announced every second. -/
def sampleNotice (delay : Nat) : Countdown Nat := ⟨"{when}".toList, delay, 1, .empty⟩

/-- Every announcement takes a second and a half. -/
def sampleTurns : Turns where
  checked := 5
  paused := 0
  started := 0
  entered := 0
  rendered _ := 0
  pauses _ := 0
  latency _ := 1500000000
  lag _ := 0
  reply _ := .ok true

theorem sampleNotice_valid {delay now later : Nat} (hdelay : delay < 2 ^ 63)
    (hnow : now + delay * 1000000000 < 2 ^ 63 * 1000000000)
    (hlater : later + 1000000000 < 2 ^ 63 * 1000000000) :
    validate sampleHost (sampleNotice delay) now later = .ok () := by
  have hchecked : ∀ (field : String) (value now : Nat) (hvalue : value < 2 ^ 63),
      now + value * 1000000000 < 2 ^ 63 * 1000000000 →
      checkedDuration sampleHost field value now = .ok ⟨value * 1000000000, by omega⟩ := by
    intro field value now hvalue hfits
    have hlimit : now + value * 1000000000 ≤ sampleHost.limit := Nat.le_pred_of_lt hfits
    rw [checkedDuration_eq (sampleHost_duration (by omega)), ensure_of hlimit, ok_bind]
    rfl
  have htemplate : validateTemplate sampleHost (sampleNotice delay) (sampleNotice delay).template =
      .ok () := by
    show validateTemplate sampleHost (sampleNotice delay) ['{', 'w', 'h', 'e', 'n', '}'] = .ok ()
    have hknown : Known sampleHost (sampleNotice delay) "when".toList :=
      ⟨by decide, Or.inl (by decide)⟩
    rw [validateTemplate, if_pos rfl, if_neg (by decide)]
    show (ensure (Known sampleHost (sampleNotice delay) "when".toList) _ >>= fun _ =>
      validateTemplate sampleHost (sampleNotice delay) []) = _
    rw [ensure_of hknown, ok_bind, validateTemplate]
    rfl
  have hdelay : checkedDuration sampleHost "notice.delay" (sampleNotice delay).delay now = _ :=
    hchecked _ delay now hdelay hnow
  have hinterval : checkedDuration sampleHost "notice.interval" (sampleNotice delay).interval later =
      _ := hchecked _ 1 later (by decide) hlater
  unfold validate nonnegative positiveDuration
  rw [hdelay, hinterval, htemplate]
  rfl

/-- The announcements of the sample: at once, half a second before the end of
the second second, and at the end. -/
theorem countdown_counted_sample : Finished (countdown sampleHost (sampleNotice 2) sampleTurns) := by
  obtain ⟨delay, interval, hdelay, hinterval, _, hends⟩ := countdown_counted sampleHost
    (sampleNotice 2) sampleTurns (sampleNotice_valid (by decide) (by decide) (by decide))
  cases hdelay
  cases hinterval
  exact (hends fun _ => rfl).2 (by decide +kernel)

/-- The countdown begins half a second before the clock is too late for the delay of the distant
notice. -/
def distantTurns : Turns :=
  { sampleTurns with checked := 1023500000000 }

def distantNotice : Countdown Nat := sampleNotice (2 ^ 63 - 1024)

theorem distantNotice_valid :
    validate sampleHost distantNotice distantTurns.checked
      (distantTurns.checked + distantTurns.paused) = .ok () :=
  sampleNotice_valid (by decide) (by decide) (by decide)

/-- The time that is left when the loop is entered. -/
def distantLeft : Nat :=
  distantTurns.origin + distantNotice.delay * 1000000000 -
    (distantTurns.origin + distantTurns.entered)

theorem distant_left : 0 < distantLeft ∧ distantLeft < 2 ^ 64 * 1000000000 := by decide +kernel

/-- The first wake is a second after the start. -/
theorem distant_late : sampleHost.limit < distantTurns.origin + distantNotice.delay * 1000000000 -
    (distantLeft - 1) / 1000000000 * 1000000000 + distantNotice.delay * 1000000000 := by
  decide +kernel

/-- The second announcement is due a second later, and then the notice is refused. -/
theorem countdown_breaks_off :
    validate sampleHost distantNotice distantTurns.checked
        (distantTurns.checked + distantTurns.paused) = .ok () ∧
      (∀ turn, distantTurns.reply turn = .ok true) ∧
      ¬Finished (countdown sampleHost distantNotice distantTurns) := by
  refine ⟨distantNotice_valid, fun _ => rfl, fun hfinished => ?_⟩
  have hresult := hfinished.result
  have hdelay : sampleHost.duration distantNotice.delay = some _ :=
    @sampleHost_duration (2 ^ 63 - 1024) (by decide)
  have hinterval : sampleHost.duration distantNotice.interval = some _ :=
    @sampleHost_duration 1 (by decide)
  rcases countdown_cases distantNotice_valid hdelay hinterval with ⟨_, heq⟩ | ⟨_, heq⟩
  · have hagain : validate sampleHost distantNotice
        (distantTurns.origin + distantTurns.entered + distantTurns.rendered 0)
        (distantTurns.origin + distantTurns.entered + distantTurns.rendered 0 +
          distantTurns.pauses 0) = .ok () :=
      sampleNotice_valid (by decide +kernel) (by decide +kernel) (by decide +kernel)
    have hrefused := loop_breaks_off hagain hdelay hinterval (by decide) distant_left.2 rfl
      (Nat.ne_of_gt distant_left.1) distant_late
    rw [heq, Run.after] at hresult
    cases hrefused.symm.trans hresult
  · rw [heq] at hresult
    cases hresult

end DstServer.Notices
