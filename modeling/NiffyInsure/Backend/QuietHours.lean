import NiffyInsure.Lib.Cyclic
import NiffyInsure.Lib.JsParts

/-!
# Quiet hours

`quiet-hours.ts` reads a window of `HH:mm` times, says whether an instant is in it, and when it
ends; `notification-dispatch.service.ts` delays what it sends until then.  An instant is its epoch
milliseconds, without the bound that `Date` sets to them.

* `minuteOfDay_eq`: the remainders of the code are the local minute of day.
* `isWithinQuietHours_iff`: the window is an interval of the day as a cycle.
* `isWithin_before`, `not_isWithin_end`: what is between an instant in the window and its end.
* `quiet_hours_deferral`: what the window is, when it ends, and when a delayed notification is sent.
-/

namespace NiffyInsure.Backend.QuietHours

open Js Cyclic

/-- A window, from its `start` to its `end`. -/
structure QuietHoursWindow where
  start : Text
  stop : Text

/-! ## Reading a time -/

/-- `[01]?\d|2[0-3]`. -/
def matchesHours : Text → Bool
  | [d] => isDigit 10 d
  | [c, d] => isDigit 2 c && isDigit 10 d || c == 0x32 && isDigit 4 d
  | _ => false

/-- `[0-5]\d`. -/
def matchesMinutes : Text → Bool
  | [c, d] => isDigit 6 c && isDigit 10 d
  | _ => false

/-- `parseHhMm`: the minutes since midnight. -/
def parseHhMm (value : Text) : Option Nat :=
  let text := trim value
  let hours := text.takeWhile (· ≠ 0x3A)
  match text.dropWhile (· ≠ 0x3A) with
  | [] => none
  | _ :: minutes =>
    if matchesHours hours = true ∧ matchesMinutes minutes = true then
      some (ofDigits 10 hours * 60 + ofDigits 10 minutes)
    else none

theorem ofDigits_pair (c d : UInt16) :
    ofDigits 10 [c, d] = (digitValue c).getD 0 * 10 + (digitValue d).getD 0 := by
  simp [ofDigits]

theorem digit_lt {radix : Nat} {c : UInt16} (h : isDigit radix c = true) :
    (digitValue c).getD 0 < radix := by
  obtain ⟨d, hd, hvalue⟩ := exists_of_isDigit h
  rwa [hvalue]

theorem hours_lt {hours : Text} (h : matchesHours hours = true) : ofDigits 10 hours < 24 := by
  unfold matchesHours at h
  split at h
  · have hd := digit_lt h
    simp only [ofDigits, List.foldl_cons, List.foldl_nil]
    omega
  · rename_i c d
    rw [Bool.or_eq_true, Bool.and_eq_true, Bool.and_eq_true] at h
    rw [ofDigits_pair]
    rcases h with ⟨hc, hd⟩ | ⟨hc, hd⟩
    · have hc' := digit_lt hc
      have hd' := digit_lt hd
      omega
    · have hd' := digit_lt hd
      have hc' : (digitValue c).getD 0 = 2 := by
        rw [eq_of_beq hc]
        rfl
      omega
  · cases h

theorem minutes_lt {minutes : Text} (h : matchesMinutes minutes = true) :
    ofDigits 10 minutes < 60 := by
  unfold matchesMinutes at h
  split at h
  · rename_i c d
    rw [Bool.and_eq_true] at h
    have hc := digit_lt h.1
    have hd := digit_lt h.2
    rw [ofDigits_pair]
    omega
  · cases h

theorem parseHhMm_lt {value : Text} {n : Nat} (h : parseHhMm value = some n) : n < 1440 := by
  unfold parseHhMm at h
  dsimp only at h
  split at h
  · cases h
  · split at h
    · rename_i hmatch
      have hhours := hours_lt hmatch.1
      have hminutes := minutes_lt hmatch.2
      cases h
      omega
    · cases h

/-- A number below a hundred with both its digits. -/
def twoDigits (n : Nat) : Text := [hexDigit (n / 10), hexDigit (n % 10)]

/-- A time as it is written. -/
def hhmm (hours minutes : Nat) : Text := twoDigits hours ++ 0x3A :: twoDigits minutes

theorem hours_twoDigits {h : Nat} (hh : h < 24) :
    matchesHours (twoDigits h) = true ∧ ofDigits 10 (twoDigits h) = h := by
  have hall : ∀ h : Fin 24, matchesHours (twoDigits h) = true ∧ ofDigits 10 (twoDigits h) = h := by
    decide
  exact hall ⟨h, hh⟩

theorem minutes_twoDigits {m : Nat} (hm : m < 60) :
    matchesMinutes (twoDigits m) = true ∧ ofDigits 10 (twoDigits m) = m := by
  have hall : ∀ m : Fin 60, matchesMinutes (twoDigits m) = true ∧
      ofDigits 10 (twoDigits m) = m := by
    decide
  exact hall ⟨m, hm⟩

theorem hexDigit_plain {n : Nat} (hn : n < 16) :
    isWhiteSpace (hexDigit n) = false ∧ hexDigit n ≠ 0x3A := by
  have hall : ∀ n : Fin 16, isWhiteSpace (hexDigit n) = false ∧ hexDigit n ≠ 0x3A := by decide
  exact hall ⟨n, hn⟩

/-- **Every time of the day can be written.** -/
theorem parseHhMm_hhmm {h m : Nat} (hh : h < 24) (hm : m < 60) :
    parseHhMm (hhmm h m) = some (h * 60 + m) := by
  have hfirst := hexDigit_plain (n := h / 10) (by omega)
  have hsecond := hexDigit_plain (n := h % 10) (by omega)
  have hlast := hexDigit_plain (n := m % 10) (by omega)
  have htrim : trim (hhmm h m) = hhmm h m := by
    have hnil : ∀ x ∈ ([] : Text), isWhiteSpace x = true := by simp
    have hsurround := trim_surrounded [hexDigit (h / 10), hexDigit (h % 10), 0x3A,
      hexDigit (m / 10)] (hexDigit (h % 10) :: 0x3A :: twoDigits m) hnil hnil hfirst.1 hlast.1
      (show hhmm h m = _ from rfl) rfl
    rwa [List.nil_append, List.append_nil] at hsurround
  have hall : ∀ c ∈ twoDigits h, decide (c ≠ 0x3A) = true := by
    intro c hc
    rcases List.mem_pair.mp hc with rfl | rfl
    · exact decide_eq_true hfirst.2
    · exact decide_eq_true hsecond.2
  unfold parseHhMm
  dsimp only
  rw [htrim, hhmm, List.takeWhile_append_of_pos hall, List.dropWhile_append_of_pos hall]
  have hhours := hours_twoDigits hh
  have hminutes := minutes_twoDigits hm
  simp [hhours.1, hhours.2, hminutes.1, hminutes.2]

/-! ## The minute of the day -/

/-- `date.getUTCHours()`. -/
def getUTCHours (now : Int) : Int := now / 3600000 % 24

/-- `date.getUTCMinutes()`. -/
def getUTCMinutes (now : Int) : Int := now / 60000 % 60

/-- `minuteOfDay`. -/
def minuteOfDay (now offsetMinutes : Int) : Int :=
  let utc := getUTCHours now * 60 + getUTCMinutes now
  ((utc + offsetMinutes).tmod 1440 + 1440).tmod 1440

theorem tmod_add_tmod (n : Int) : (n.tmod 1440 + 1440).tmod 1440 = n % 1440 := by
  have hlow : -1440 < n.tmod 1440 := Int.lt_tmod_of_pos n (by decide)
  have hrem : n.tmod 1440 = n % 1440 ∨ n.tmod 1440 = n % 1440 - 1440 := by
    rw [Int.tmod_eq_emod]
    split
    · exact .inl (Int.sub_zero _)
    · exact .inr rfl
  rw [Int.tmod_eq_emod_of_nonneg (by omega), Int.add_emod_right]
  omega

/-- **The local minute of the day.** -/
theorem minuteOfDay_eq (now offsetMinutes : Int) :
    minuteOfDay now offsetMinutes = (now / 60000 + offsetMinutes) % 1440 := by
  unfold minuteOfDay getUTCHours getUTCMinutes
  dsimp only
  rw [tmod_add_tmod]
  omega

/-! ## The window -/

/-- `isWithinQuietHours`. -/
def isWithinQuietHours (now : Int) (window : QuietHoursWindow) (offsetMinutes : Int) : Bool :=
  match parseHhMm window.start, parseHhMm window.stop with
  | some start, some stop =>
    if start = stop then false
    else
      let current := minuteOfDay now offsetMinutes
      if start < stop then decide (start ≤ current ∧ current < stop)
      -- around midnight
      else decide (start ≤ current ∨ current < stop)
  | _, _ => false

/-- `nextQuietPeriodEnd`. -/
def nextQuietPeriodEnd (now : Int) (window : QuietHoursWindow) (offsetMinutes : Int) : Int :=
  if isWithinQuietHours now window offsetMinutes = true then
    match parseHhMm window.start, parseHhMm window.stop with
    | some _, some stop =>
      let current := minuteOfDay now offsetMinutes
      let minutesUntilEnd := (stop - current + 1440).tmod 1440
      now + minutesUntilEnd * 60000
    | _, _ => now
  else now

/-- The quiet hours among the preferences of a user. -/
structure QuietHoursConfig extends QuietHoursWindow where
  enabled : Bool

/-- How long a notification waits, and until when if it does. -/
structure QuietDelay where
  delayMs : Int
  deferredUntil : Option Int

/-- `resolveQuietDelay`. -/
def resolveQuietDelay (quietHours : QuietHoursConfig) (now : Int) : QuietDelay :=
  if quietHours.enabled = false then ⟨0, none⟩
  else if isWithinQuietHours now quietHours.toQuietHoursWindow 0 = false then ⟨0, none⟩
  else
    let resumeAt := nextQuietPeriodEnd now quietHours.toQuietHoursWindow 0
    ⟨max (resumeAt - now) 0, some resumeAt⟩

section

variable {window : QuietHoursWindow} {start stop : Nat} {now offsetMinutes : Int}

/-- **The window is an interval of the day**, from its start to its end on the cycle of the
minutes. -/
theorem isWithinQuietHours_iff (hstart : parseHhMm window.start = some start)
    (hstop : parseHhMm window.stop = some stop) (hne : start ≠ stop) :
    isWithinQuietHours now window offsetMinutes = true ↔
      Arc 1440 start stop ((now / 60000 + offsetMinutes) % 1440) := by
  have hstart' := parseHhMm_lt hstart
  have hstop' := parseHhMm_lt hstop
  rw [arc_iff (by omega) (by omega) (by omega) (by omega) (by omega) (by omega)]
  unfold isWithinQuietHours
  rw [hstart, hstop]
  dsimp only
  rw [if_neg hne, minuteOfDay_eq]
  by_cases hlt : start < stop
  · rw [if_pos hlt, if_pos (by omega), decide_eq_true_eq]
  · rw [if_neg hlt, if_neg (by omega), decide_eq_true_eq]

theorem nextQuietPeriodEnd_eq (hstart : parseHhMm window.start = some start)
    (hstop : parseHhMm window.stop = some stop)
    (h : isWithinQuietHours now window offsetMinutes = true) :
    nextQuietPeriodEnd now window offsetMinutes =
      now + ahead 1440 ((now / 60000 + offsetMinutes) % 1440) stop * 60000 := by
  unfold nextQuietPeriodEnd
  rw [if_pos h, hstart, hstop]
  dsimp only
  rw [minuteOfDay_eq, Int.tmod_eq_emod_of_nonneg (by omega), Int.add_emod_right]
  rfl

theorem isWithin_before (hstart : parseHhMm window.start = some start)
    (hstop : parseHhMm window.stop = some stop) (hne : start ≠ stop)
    (h : isWithinQuietHours now window offsetMinutes = true) {later : Int} (hle : now ≤ later)
    (hlt : later / 60000 < nextQuietPeriodEnd now window offsetMinutes / 60000) :
    isWithinQuietHours later window offsetMinutes = true := by
  rw [nextQuietPeriodEnd_eq hstart hstop h] at hlt
  rw [isWithinQuietHours_iff hstart hstop hne] at h ⊢
  refine h.advance (k := later / 60000 - now / 60000) (by decide) (by omega) (by omega) ?_
  omega

theorem not_isWithin_end (hstart : parseHhMm window.start = some start)
    (hstop : parseHhMm window.stop = some stop) (hne : start ≠ stop)
    (h : isWithinQuietHours now window offsetMinutes = true) {later : Int}
    (heq : later / 60000 = nextQuietPeriodEnd now window offsetMinutes / 60000) :
    isWithinQuietHours later window offsetMinutes = false := by
  rw [nextQuietPeriodEnd_eq hstart hstop h] at heq
  rw [← Bool.not_eq_true, isWithinQuietHours_iff hstart hstop hne]
  refine not_arc_stop ?_
  have hdvd := dvd_ahead_sub 1440 ((now / 60000 + offsetMinutes) % 1440) stop
  omega

theorem nextQuietPeriodEnd_bounds (hstart : parseHhMm window.start = some start)
    (hstop : parseHhMm window.stop = some stop) (hne : start ≠ stop)
    (h : isWithinQuietHours now window offsetMinutes = true) :
    now < nextQuietPeriodEnd now window offsetMinutes ∧
      nextQuietPeriodEnd now window offsetMinutes < now + 24 * 60 * 60 * 1000 := by
  rw [nextQuietPeriodEnd_eq hstart hstop h]
  rw [isWithinQuietHours_iff hstart hstop hne] at h
  have hpos := h.ahead_pos (by decide)
  have hlt := ahead_lt (p := 1440) (by decide) ((now / 60000 + offsetMinutes) % 1440) stop
  constructor <;> omega

theorem resolveQuietDelay_eq (hstart : parseHhMm window.start = some start)
    (hstop : parseHhMm window.stop = some stop) (hne : start ≠ stop)
    (h : isWithinQuietHours now window 0 = true) :
    resolveQuietDelay ⟨window, true⟩ now =
      ⟨nextQuietPeriodEnd now window 0 - now, some (nextQuietPeriodEnd now window 0)⟩ := by
  have hbounds := nextQuietPeriodEnd_bounds hstart hstop hne h
  unfold resolveQuietDelay
  dsimp only
  rw [if_neg (by decide), if_neg (by simp [h]), max_eq_left (by omega)]

theorem resolveQuietDelay_zero (h : isWithinQuietHours now window 0 = false) :
    resolveQuietDelay ⟨window, true⟩ now = ⟨0, none⟩ := by
  unfold resolveQuietDelay
  dsimp only
  rw [if_neg (by decide), if_pos h]

end

/-- **Quiet hours defer until they end.**  The window is an interval of the local day; its end is
less than a day ahead, outside of it, and the first whole number of minutes after `now` that is; and
a notification that waits is sent outside of the window, in the minute in which it has ended. -/
theorem quiet_hours_deferral (window : QuietHoursWindow) (start stop : Nat)
    (hstart : parseHhMm window.start = some start) (hstop : parseHhMm window.stop = some stop)
    (hne : start ≠ stop) (now offsetMinutes : Int) :
    (isWithinQuietHours now window offsetMinutes = true ↔
      Arc 1440 start stop ((now / 60000 + offsetMinutes) % 1440)) ∧
    (isWithinQuietHours now window offsetMinutes = true →
      (now < nextQuietPeriodEnd now window offsetMinutes ∧
        nextQuietPeriodEnd now window offsetMinutes < now + 24 * 60 * 60 * 1000) ∧
      isWithinQuietHours (nextQuietPeriodEnd now window offsetMinutes) window
      offsetMinutes = false ∧
      ∀ k : Nat, now + k * 60000 < nextQuietPeriodEnd now window offsetMinutes →
        isWithinQuietHours (now + k * 60000) window offsetMinutes = true) ∧
    (isWithinQuietHours (now + (resolveQuietDelay ⟨window, true⟩ now).delayMs) window 0 = false ∧
      (isWithinQuietHours now window 0 = true →
        ∃ ended, (∀ t, now ≤ t → t < ended → isWithinQuietHours t window 0 = true) ∧
          isWithinQuietHours ended window 0 = false ∧ now < ended ∧
          ended ≤ now + (resolveQuietDelay ⟨window, true⟩ now).delayMs ∧
          now + (resolveQuietDelay ⟨window, true⟩ now).delayMs < ended + 60 * 1000)) := by
  refine ⟨isWithinQuietHours_iff hstart hstop hne, fun h => ⟨?_, ?_, fun k hk => ?_⟩, ?_, fun h =>
    ?_⟩
  · exact nextQuietPeriodEnd_bounds hstart hstop hne h
  · exact not_isWithin_end hstart hstop hne h rfl
  · refine isWithin_before hstart hstop hne h (by omega) ?_
    -- both are a whole number of minutes after `now`
    rw [nextQuietPeriodEnd_eq hstart hstop h] at hk ⊢
    omega
  · by_cases h : isWithinQuietHours now window 0 = true
    · rw [resolveQuietDelay_eq hstart hstop hne h]
      refine not_isWithin_end hstart hstop hne h ?_
      dsimp only
      omega
    · rw [Bool.not_eq_true] at h
      rw [resolveQuietDelay_zero h]
      simpa using h
  · have hbounds := nextQuietPeriodEnd_bounds hstart hstop hne h
    rw [resolveQuietDelay_eq hstart hstop hne h]
    -- the minute in which the window ends, from its first instant on
    refine ⟨nextQuietPeriodEnd now window 0 / 60000 * 60000, fun t hle hlt => ?_, ?_, ?_, ?_, ?_⟩
    · exact isWithin_before hstart hstop hne h hle (by omega)
    · exact not_isWithin_end hstart hstop hne h (by omega)
    · rw [nextQuietPeriodEnd_eq hstart hstop h] at hbounds ⊢
      omega
    · dsimp only
      omega
    · dsimp only
      omega

/-- A night, and an instant half a minute after half past eleven in it. -/
theorem quiet_hours_deferral_night :
    isWithinQuietHours 84630000 ⟨hhmm 22 0, hhmm 7 0⟩ 0 = true ∧
      isWithinQuietHours (nextQuietPeriodEnd 84630000 ⟨hhmm 22 0, hhmm 7 0⟩ 0)
        ⟨hhmm 22 0, hhmm 7 0⟩ 0 = false := by
  have hwithin : isWithinQuietHours 84630000 ⟨hhmm 22 0, hhmm 7 0⟩ 0 = true := by decide
  exact ⟨hwithin, ((quiet_hours_deferral ⟨hhmm 22 0, hhmm 7 0⟩ 1320 420 (by decide) (by decide)
    (by decide) 84630000 0).2.1 hwithin).2.1⟩

end NiffyInsure.Backend.QuietHours
