import DobieStation.Cdvd.SCommands
import DobieStation.Lib.Odometer
import Mathlib.Tactic.IntervalCases

/-! # The clock of the CDVD drive

The clock counts in binary and is read in BCD, but takes what is written as it is. So a date that has been written
is read back if and only if every field of it is below ten; and the clock is right from then on if the vsyncs of a
second begin with the command, which does not begin them anew (`clock_iff`). -/

namespace DobieStation.Cdvd.Clock

open Finset DobieStation.Lib.Fault DobieStation.Lib.Odometer DobieStation.Cdvd.SCommands
open DobieStation.Cdvd.Model (Byte)

/-! ### The calendar -/

def monthLength (month year : ℕ) : ℕ :=
  if month = 2 then if year % 4 = 0 then 29 else 28
  else if month = 4 ∨ month = 6 ∨ month = 9 ∨ month = 11 then 30 else 31

def secondsOfMonth (year month : ℕ) : ℕ := monthLength month year * 86400

def secondsOfYear (year : ℕ) : ℕ := ∑ i ∈ range 12, secondsOfMonth year (i + 1)

/-- The years from 2000 to 2099. -/
def century : ℕ := ∑ year ∈ range 100, secondsOfYear year

def years : Counter (ℕ × Unit) := refine (whole century) 0 (fun _ => 100) fun _ => secondsOfYear

def months : Counter (ℕ × ℕ × Unit) := refine years 1 (fun _ => 12) fun u i => secondsOfMonth u.1 (i + 1)

def days : Counter (ℕ × ℕ × ℕ × Unit) := refine months 1 (fun u => monthLength u.1 u.2.1) fun _ _ => 86400

def hours : Counter (ℕ × ℕ × ℕ × ℕ × Unit) := refine days 0 (fun _ => 24) fun _ _ => 3600

def minutes : Counter (ℕ × ℕ × ℕ × ℕ × ℕ × Unit) := refine hours 0 (fun _ => 60) fun _ _ => 60

/-- Second, minute, hour, day, month and year. -/
abbrev Digits := ℕ × ℕ × ℕ × ℕ × ℕ × ℕ × Unit

def seconds : Counter Digits := refine minutes 0 (fun _ => 60) fun _ _ => 1

theorem monthLength_pos (month year : ℕ) : 0 < monthLength month year := by
  unfold monthLength
  split_ifs <;> decide

theorem secondsOfMonth_pos (year month : ℕ) : 0 < secondsOfMonth year month :=
  Nat.mul_pos (monthLength_pos month year) (by decide)

theorem secondsOfYear_pos (year : ℕ) : 0 < secondsOfYear year :=
  sum_pos (fun i _ => secondsOfMonth_pos year (i + 1)) (nonempty_range_iff.mpr (by decide))

theorem lawful_years : Lawful years century :=
  lawful_refine (lawful_whole century)
    ⟨fun _ _ => by decide, fun _ i _ _ => secondsOfYear_pos i, fun _ _ => rfl⟩

theorem lawful_months : Lawful months century := by
  refine lawful_refine lawful_years ⟨fun _ _ => by decide, fun u i _ _ => secondsOfMonth_pos u.1 (i + 1), ?_⟩
  rintro ⟨year, u⟩ -
  rfl

/-- Parts of the same length. -/
theorem parts_const {U : Type*} {c : Counter U} {count : U → ℕ} {len : ℕ} (hcount : ∀ u, 0 < count u) (hlen : 0 < len)
    (h : ∀ u, c.valid u → count u * len = c.length u) : Parts c count fun _ _ => len where
  some_part u _ := hcount u
  pos _ _ _ _ := hlen
  total u hu := by rw [sum_const_nat fun _ _ => rfl, card_range, h u hu]

theorem lawful_days : Lawful days century := by
  refine lawful_refine lawful_months (parts_const (fun u => monthLength_pos u.1 u.2.1) (by decide) ?_)
  rintro ⟨month, year, u⟩ ⟨⟨hpos, -⟩, -⟩
  show monthLength month year * 86400 = secondsOfMonth year (month - 1 + 1)
  rw [Nat.sub_add_cancel hpos]
  rfl

theorem lawful_hours : Lawful hours century :=
  lawful_refine lawful_days (parts_const (fun _ => by decide) (by decide) fun _ _ => rfl)

theorem lawful_minutes : Lawful minutes century :=
  lawful_refine lawful_hours (parts_const (fun _ => by decide) (by decide) fun _ _ => rfl)

theorem lawful_seconds : Lawful seconds century :=
  lawful_refine lawful_minutes (parts_const (fun _ => by decide) (by decide) fun _ _ => rfl)

/-- A date of this century and a time. -/
structure Moment where
  second : ℕ
  minute : ℕ
  hour : ℕ
  day : ℕ
  month : ℕ
  year : ℕ
  second_lt : second < 60
  minute_lt : minute < 60
  hour_lt : hour < 24
  day_pos : 1 ≤ day
  day_le : day ≤ monthLength month year
  month_pos : 1 ≤ month
  month_le : month ≤ 12
  year_lt : year < 100

def Moment.digits (t : Moment) : Digits := (t.second, t.minute, t.hour, t.day, t.month, t.year, ())

/-- The seconds from the beginning of the century on. -/
def Moment.number (t : Moment) : ℕ := seconds.start t.digits

theorem seconds_one : ∀ u, seconds.valid u → seconds.length u = 1 := fun _ _ => rfl

theorem Moment.valid_digits (t : Moment) : seconds.valid t.digits := by
  have hsecond := t.second_lt
  have hminute := t.minute_lt
  have hhour := t.hour_lt
  have hday := t.day_le
  have hmonth := t.month_le
  have hyear := t.year_lt
  refine ⟨⟨Nat.zero_le _, ?_⟩, ⟨Nat.zero_le _, ?_⟩, ⟨Nat.zero_le _, ?_⟩, ⟨t.day_pos, ?_⟩, ⟨t.month_pos, ?_⟩,
    ⟨Nat.zero_le _, ?_⟩, trivial⟩
  · dsimp only [digits]
    omega
  · dsimp only [digits]
    omega
  · dsimp only [digits]
    omega
  · dsimp only [digits]
    omega
  · dsimp only [digits]
    omega
  · dsimp only [digits]
    omega

/-- Digits that are valid are those of a moment. -/
theorem exists_moment {u : Digits} (h : seconds.valid u) : ∃ t : Moment, t.digits = u := by
  obtain ⟨second, minute, hour, day, month, year, ⟨⟩⟩ := u
  obtain ⟨⟨-, hsecond⟩, ⟨-, hminute⟩, ⟨-, hhour⟩, ⟨hday, hday'⟩, ⟨hmonth, hmonth'⟩, ⟨-, hyear⟩, -⟩ := h
  dsimp only at *
  exact ⟨⟨second, minute, hour, day, month, year, by omega, by omega, by omega, hday, by omega, hmonth, by omega,
    by omega⟩, rfl⟩

theorem digits_inj {t t' : Moment} (h : t.digits = t'.digits) : t = t' := by
  cases t
  cases t'
  cases h
  rfl

/-- **Moments are told apart by their numbers.** -/
theorem number_inj {t t' : Moment} (h : t.number = t'.number) : t = t' :=
  digits_inj (start_inj lawful_seconds seconds_one t.valid_digits t'.valid_digits h)

/-! ### The clock follows the calendar -/

def digits (r : RTC) : Digits := (r.second, r.minute, r.hour, r.day, r.month, r.year, ())

theorem lastDay_eq {r : RTC} (hpos : 1 ≤ r.month) (hle : r.month ≤ 12) :
    r.lastDay = some (monthLength r.month r.year) := by
  unfold RTC.lastDay monthLength
  generalize r.month = month at *
  interval_cases month <;> by_cases hleap : r.year % 4 = 0 <;> simp [hleap, monthmap]

section

variable (second minute hour day month year : ℕ)

theorem next_seconds (u : ℕ × ℕ × ℕ × ℕ × ℕ × Unit) :
    seconds.next (second, u) = if second + 1 < 60 then (second + 1, u) else (0, minutes.next u) := rfl

theorem next_minutes (u : ℕ × ℕ × ℕ × ℕ × Unit) :
    minutes.next (minute, u) = if minute + 1 < 60 then (minute + 1, u) else (0, hours.next u) := rfl

theorem next_hours (u : ℕ × ℕ × ℕ × Unit) :
    hours.next (hour, u) = if hour + 1 < 24 then (hour + 1, u) else (0, days.next u) := rfl

theorem next_days : days.next (day, month, year, ()) =
    if day + 1 ≤ monthLength month year then (day + 1, month, year, ()) else (1, months.next (month, year, ())) := by
  by_cases h : day + 1 ≤ monthLength month year
  · rw [if_pos h]
    exact next_of_lt (show day + 1 < 1 + monthLength month year by omega)
  · rw [if_neg h]
    exact next_of_end (show ¬ day + 1 < 1 + monthLength month year by omega)

theorem next_months (u : ℕ × Unit) :
    months.next (month, u) = if month + 1 < 13 then (month + 1, u) else (1, years.next u) := rfl

theorem next_years : years.next (year, ()) = if year + 1 < 100 then (year + 1, ()) else (0, ()) := rfl

end

theorem carry_next {r : RTC} (h : seconds.valid (digits r)) :
    ∃ r', r.carry = some r' ∧ r'.vsyncs = 0 ∧ digits r' = seconds.next (digits r) := by
  obtain ⟨vsyncs, second, minute, hour, day, month, year, hvsyncs⟩ := r
  obtain ⟨-, -, -, -, ⟨hmonth, hmonth'⟩, -⟩ := h
  dsimp only [digits] at hmonth hmonth'
  have hle : month ≤ 12 := by omega
  have hlast := lastDay_eq (r := ⟨0, second, minute, hour, day, month, year, zero_lt_sixty⟩) hmonth hle
  unfold RTC.carry digits
  dsimp only
  rw [hlast, next_seconds, next_minutes, next_hours, next_days, next_months, next_years, Option.map_some]
  dsimp only
  by_cases h1 : second + 1 < 60
  · rw [if_pos h1, if_pos h1]
    exact ⟨_, rfl, rfl, rfl⟩
  rw [if_neg h1, if_neg h1]
  by_cases h2 : minute + 1 < 60
  · rw [if_pos h2, if_pos h2]
    exact ⟨_, rfl, rfl, rfl⟩
  rw [if_neg h2, if_neg h2]
  by_cases h3 : hour + 1 < 24
  · rw [if_pos h3, if_pos h3]
    exact ⟨_, rfl, rfl, rfl⟩
  rw [if_neg h3, if_neg h3]
  by_cases h4 : day + 1 ≤ monthLength month year
  · rw [if_pos h4, if_pos h4]
    exact ⟨_, rfl, rfl, rfl⟩
  rw [if_neg h4, if_neg h4]
  by_cases h5 : month + 1 < 13
  · rw [if_pos h5, if_pos h5]
    exact ⟨_, rfl, rfl, rfl⟩
  rw [if_neg h5, if_neg h5]
  by_cases h6 : year + 1 < 100
  · rw [if_pos h6, if_pos h6]
    exact ⟨_, rfl, rfl, rfl⟩
  · rw [if_neg h6, if_neg h6]
    exact ⟨_, rfl, rfl, rfl⟩

/-- **One vsync.** -/
theorem vsync_next {r : RTC} (h : seconds.valid (digits r)) : ∃ r', r.vsync = some r' ∧
    r'.vsyncs = (r.vsyncs + 1) % 60 ∧ digits r' = seconds.next^[(r.vsyncs + 1) / 60] (digits r) := by
  have hlt := r.vsyncs_lt
  unfold RTC.vsync
  by_cases hv : r.vsyncs + 1 < 60
  · rw [dif_pos hv, Nat.div_eq_of_lt hv, Nat.mod_eq_of_lt hv]
    exact ⟨_, rfl, rfl, rfl⟩
  · rw [dif_neg hv, show r.vsyncs + 1 = 60 by omega]
    exact carry_next h

/-- The clock after some vsyncs. -/
def vsyncs : ℕ → RTC → Option RTC
  | 0, r => some r
  | n + 1, r => (vsyncs n r).bind RTC.vsync

/-- **A run of vsyncs.** -/
theorem vsyncs_next {r : RTC} (h : seconds.valid (digits r)) (n : ℕ) : ∃ r', vsyncs n r = some r' ∧
    r'.vsyncs = (r.vsyncs + n) % 60 ∧ digits r' = seconds.next^[(r.vsyncs + n) / 60] (digits r) := by
  induction n with
  | zero =>
    have hlt := r.vsyncs_lt
    refine ⟨r, rfl, (Nat.mod_eq_of_lt hlt).symm, ?_⟩
    rw [Nat.add_zero, Nat.div_eq_of_lt hlt]
    rfl
  | succ n ih =>
    obtain ⟨r', hr, hvsyncs, hdigits⟩ := ih
    have hvalid : seconds.valid (digits r') := by
      rw [hdigits]
      exact (iterate_start lawful_seconds seconds_one h _).1
    obtain ⟨r'', hr', hvsyncs', hdigits'⟩ := vsync_next hvalid
    refine ⟨r'', ?_, ?_, ?_⟩
    · rw [vsyncs, hr]
      exact hr'
    · rw [hvsyncs', hvsyncs]
      omega
    · rw [hdigits', hdigits, ← Function.iterate_add_apply, hvsyncs]
      congr 2
      omega

/-! ### BCD -/

/-- Two decimal digits. -/
def bcd (n : ℕ) : Byte := BitVec.ofNat 4 (n / 10) ++ BitVec.ofNat 4 (n % 10)

theorem toNat_bcd {n : ℕ} (h : n < 100) : (bcd n).toNat = n / 10 * 16 + n % 10 := by
  unfold bcd
  rw [BitVec.toNat_append, BitVec.toNat_ofNat, BitVec.toNat_ofNat, ← Nat.shiftLeft_add_eq_or_of_lt (by omega),
    Nat.shiftLeft_eq]
  omega

theorem toNat_itob (i : ℕ) : (itob i).toNat = (i / 10 * 16 + i % 10) % 256 := BitVec.toNat_ofNat _ _

/-- What the clock shows is right for the numbers below 100 only. -/
theorem itob_eq_iff {n i : ℕ} (hn : n < 100) (hi : i < 160) : itob i = bcd n ↔ i = n := by
  rw [← BitVec.toNat_inj, toNat_itob, toNat_bcd hn]
  omega

/-- What is read of the clock. -/
def Moment.bytes (t : Moment) : List Byte :=
  [0, bcd t.second, bcd t.minute, bcd t.hour, 0, bcd t.day, bcd t.month, bcd t.year]

theorem monthLength_le (month year : ℕ) : monthLength month year ≤ 31 := by
  unfold monthLength
  split_ifs <;> decide

theorem Moment.day_lt (t : Moment) : t.day < 32 := by
  have hle := monthLength_le t.month t.year
  have hday := t.day_le
  omega

/-- Every field is below the first number that would have the BCD of a smaller one. -/
def Within (r : RTC) : Prop :=
  r.second < 160 ∧ r.minute < 160 ∧ r.hour < 160 ∧ r.day < 160 ∧ r.month < 160 ∧ r.year < 160

theorem digits_eq_iff {r : RTC} {t : Moment} : digits r = t.digits ↔ r.second = t.second ∧ r.minute = t.minute ∧
    r.hour = t.hour ∧ r.day = t.day ∧ r.month = t.month ∧ r.year = t.year := by
  unfold digits Moment.digits
  simp only [Prod.mk.injEq, and_true]

/-- **The bytes that are read are those of the digits.** -/
theorem bytes_eq_iff {r : RTC} {t : Moment} (hr : Within r) : r.bytes = t.bytes ↔ digits r = t.digits := by
  obtain ⟨h1, h2, h3, h4, h5, h6⟩ := hr
  have hsecond := t.second_lt
  have hminute := t.minute_lt
  have hhour := t.hour_lt
  have hday := t.day_lt
  have hmonth := t.month_le
  rw [digits_eq_iff]
  unfold RTC.bytes Moment.bytes
  simp only [List.cons.injEq, true_and, and_true]
  rw [itob_eq_iff (show t.second < 100 by omega) h1, itob_eq_iff (show t.minute < 100 by omega) h2,
    itob_eq_iff (show t.hour < 100 by omega) h3, itob_eq_iff (show t.day < 100 by omega) h4,
    itob_eq_iff (show t.month < 100 by omega) h5, itob_eq_iff t.year_lt h6]

theorem within_of_digits {r : RTC} {t : Moment} (h : digits r = t.digits) : Within r := by
  obtain ⟨h1, h2, h3, h4, h5, h6⟩ := digits_eq_iff.1 h
  have hsecond := t.second_lt
  have hminute := t.minute_lt
  have hhour := t.hour_lt
  have hday := t.day_lt
  have hmonth := t.month_le
  have hyear := t.year_lt
  refine ⟨?_, ?_, ?_, ?_, ?_, ?_⟩ <;> omega

/-! ### Setting and reading the clock -/

/-- The parameters are a moment. -/
structure Given (t : Moment) (s : Mechacon) : Prop where
  second : s.SCommandParams 0 = bcd t.second
  minute : s.SCommandParams 1 = bcd t.minute
  hour : s.SCommandParams 2 = bcd t.hour
  day : s.SCommandParams 4 = bcd t.day
  month : s.SCommandParams 5 = bcd t.month
  year : s.SCommandParams 6 = bcd t.year

def writeClock : M PUnit := sendSCommand 0x09

/-- The command, and the reading of its result. -/
def readClock : M (List Byte) := do
  sendSCommand 0x08
  (List.replicate 8 ()).mapM fun _ => readSData

/-- The clock has been written and `n` vsyncs are over: no index of a month is out of range, and what is read is the
moment that is that many seconds later. -/
def Reads (t : Moment) (elapsed : ℕ → ℕ) (s : Mechacon) (n : ℕ) : Prop :=
  ∃ r, vsyncs n s.rtc = some r ∧ ∃ (t' : Moment) (s' : Mechacon), Gives readClock { s with rtc := r } t'.bytes s' ∧
    t'.number = (t.number + elapsed n) % century

/-- What is asked of a moment that is written: it is read back, and the clock counts from there. -/
def Keeps (t : Moment) (elapsed : ℕ → ℕ) (s : Mechacon) : Prop :=
  ∃ s₁, Gives writeClock s ⟨⟩ s₁ ∧ (∃ s₂, Gives readClock s₁ t.bytes s₂) ∧ ∀ n, Reads t elapsed s₁ n

/-- Every field is below ten. -/
def Moment.Small (t : Moment) : Prop :=
  t.second < 10 ∧ t.minute < 10 ∧ t.hour < 10 ∧ t.day < 10 ∧ t.month < 10 ∧ t.year < 10

variable {s s' : Mechacon} {t : Moment} {r : RTC}

/-- The bytes of a result are read one after the other. -/
theorem gives_reads (bytes : List Byte) : ∀ {s : Mechacon} {k : ℕ}, s.SOutParams = bytes.length →
    (bytes ≠ [] → s.SParams = k) → (∀ (i : ℕ) (h : i < bytes.length), s.SOutdata (k + i) = bytes[i]) →
    k + bytes.length ≤ 16 →
    ∃ s', Gives ((List.replicate bytes.length ()).mapM fun _ => readSData) s bytes s' := by
  induction bytes with
  | nil =>
    intro s k _ _ _ _
    exact ⟨s, gives_pure⟩
  | cons byte bytes ih =>
    intro s k hleft hindex hdata hle
    have hk := hindex (List.cons_ne_nil _ _)
    rw [List.length_cons] at hleft hle
    have hbyte : s.SOutdata s.SParams = byte := by
      rw [hk]
      exact hdata 0 (Nat.zero_lt_succ _)
    have hread : Gives readSData s byte s.consumed := by
      unfold Gives
      rw [run_readSData, if_neg (by omega), if_neg (by omega), hbyte]
    have hrest : ∃ s', Gives ((List.replicate bytes.length ()).mapM fun _ => readSData) s.consumed bytes s' := by
      refine ih (k := k + 1) ?_ (fun hne => ?_) (fun i hi => ?_) (by omega)
      · unfold Mechacon.consumed
        split_ifs with hlast
        · show 0 = bytes.length
          omega
        · show s.SOutParams - 1 = bytes.length
          omega
      · have hlast : ¬ s.SOutParams = 1 := by
          have hpos := List.length_pos_iff.mpr hne
          omega
        unfold Mechacon.consumed
        rw [if_neg hlast]
        exact congrArg (· + 1) hk
      · have hnext := hdata (i + 1) (Nat.succ_lt_succ hi)
        rw [List.getElem_cons_succ, show k + (i + 1) = k + 1 + i by omega] at hnext
        rw [← hnext]
        unfold Mechacon.consumed
        split_ifs <;> rfl
    obtain ⟨s', hs⟩ := hrest
    exact ⟨s', gives_mapM_cons hread hs⟩

theorem gives_readClock (s : Mechacon) : ∃ s', Gives readClock s s.rtc.bytes s' := by
  have hsend : Gives (sendSCommand 0x08) s ⟨⟩ (s.answered 0x08 s.rtc.bytes) := run_sendSCommand
  obtain ⟨s', hs⟩ := gives_reads s.rtc.bytes (s := s.answered 0x08 s.rtc.bytes) (k := 0) rfl (fun _ => rfl)
    (fun i hi => by rw [Nat.zero_add]; exact overwrite_of_lt hi) (show 0 + 8 ≤ 16 by decide)
  exact ⟨s', hsend.bind hs⟩

theorem readClock_bytes {bytes : List Byte} (h : Gives readClock s bytes s') : bytes = s.rtc.bytes := by
  obtain ⟨s'', hs⟩ := gives_readClock s
  unfold Gives at h hs
  cases h.symm.trans hs
  rfl

theorem gives_writeClock (s : Mechacon) : Gives writeClock s ⟨⟩ (s.answered 0x09 [0]) := run_sendSCommand

/-! ### What the clock takes -/

theorem toNat_and_7F (b : Byte) : (b &&& 0x7F#8).toNat = b.toNat % 128 := by
  rw [BitVec.toNat_and]
  exact Nat.and_two_pow_sub_one_eq_mod b.toNat 7

/-- The clock after the command. -/
def written (s : Mechacon) : RTC := s.rtc.write s.SCommandParams

theorem Given.fields (h : Given t s) : (written s).second = t.second / 10 * 16 + t.second % 10 ∧
    (written s).minute = (t.minute / 10 * 16 + t.minute % 10) % 60 ∧
    (written s).hour = (t.hour / 10 * 16 + t.hour % 10) % 24 ∧ (written s).day = t.day / 10 * 16 + t.day % 10 ∧
    (written s).month = t.month / 10 * 16 + t.month % 10 ∧ (written s).year = t.year / 10 * 16 + t.year % 10 := by
  have hsecond := t.second_lt
  have hminute := t.minute_lt
  have hhour := t.hour_lt
  have hday := t.day_lt
  have hmonth := t.month_le
  unfold written RTC.write
  dsimp only
  rw [h.second, h.minute, h.hour, h.day, h.month, h.year, toNat_and_7F, toNat_bcd (show t.second < 100 by omega),
    toNat_bcd (show t.minute < 100 by omega), toNat_bcd (show t.hour < 100 by omega),
    toNat_bcd (show t.day < 100 by omega), toNat_bcd (show t.month < 100 by omega), toNat_bcd t.year_lt]
  refine ⟨rfl, rfl, rfl, rfl, Nat.mod_eq_of_lt (by omega), rfl⟩

theorem Given.within (h : Given t s) : Within (written s) := by
  obtain ⟨e1, e2, e3, e4, e5, e6⟩ := h.fields
  have hsecond := t.second_lt
  have hday := t.day_lt
  have hmonth := t.month_le
  have hyear := t.year_lt
  refine ⟨?_, ?_, ?_, ?_, ?_, ?_⟩ <;> omega

/-- **The clock takes a moment over if and only if every field is below ten.** -/
theorem Given.digits_iff (h : Given t s) : digits (written s) = t.digits ↔ t.Small := by
  obtain ⟨e1, e2, e3, e4, e5, e6⟩ := h.fields
  have hsecond := t.second_lt
  have hminute := t.minute_lt
  have hhour := t.hour_lt
  have hday := t.day_lt
  have hmonth := t.month_le
  have hyear := t.year_lt
  rw [digits_eq_iff, e1, e2, e3, e4, e5, e6]
  unfold Moment.Small
  constructor
  · rintro ⟨h1, h2, h3, h4, h5, h6⟩
    refine ⟨?_, ?_, ?_, ?_, ?_, ?_⟩ <;> omega
  · rintro ⟨h1, h2, h3, h4, h5, h6⟩
    refine ⟨?_, ?_, ?_, ?_, ?_, ?_⟩ <;> omega

/-! ### The clock counts -/

theorem number_lt (t : Moment) : t.number < century := lawful_seconds.end_le t.digits t.valid_digits

/-- A second later it is another moment. -/
theorem number_succ_ne (t : Moment) : (t.number + 1) % century ≠ t.number := by
  intro h
  have hnext := lawful_seconds.start_next _ t.valid_digits
  have hvalid := lawful_seconds.valid_next _ t.valid_digits
  have hsame := start_inj lawful_seconds seconds_one hvalid t.valid_digits (hnext.trans h)
  unfold Moment.digits at hsame
  rw [next_seconds] at hsame
  split_ifs at hsame with hlt
  · have hsecond := congrArg Prod.fst hsame
    dsimp only at hsecond
    omega
  · have hsecond := congrArg Prod.fst hsame
    dsimp only at hsecond
    omega

/-- What the clock shows after some vsyncs. -/
theorem reads_iff (h : digits s.rtc = t.digits) (elapsed : ℕ → ℕ) (n : ℕ) : Reads t elapsed s n ↔
    (t.number + (s.rtc.vsyncs + n) / 60) % century = (t.number + elapsed n) % century := by
  have hvalid : seconds.valid (digits s.rtc) := by
    rw [h]
    exact t.valid_digits
  obtain ⟨r, hr, -, hdigits⟩ := vsyncs_next hvalid n
  obtain ⟨hvalid', hstart⟩ := iterate_start lawful_seconds seconds_one hvalid ((s.rtc.vsyncs + n) / 60)
  rw [← hdigits] at hvalid' hstart
  rw [h] at hstart
  obtain ⟨t', ht⟩ := exists_moment hvalid'
  have hwithin := within_of_digits ht.symm
  have hnumber : t'.number = (t.number + (s.rtc.vsyncs + n) / 60) % century := by
    unfold Moment.number
    rw [ht, hstart]
  rw [← hnumber]
  constructor
  · rintro ⟨r', hr', t'', s', hread, hcount⟩
    obtain rfl : r = r' := by
      rw [hr] at hr'
      exact Option.some.inj hr'
    have hbytes := (bytes_eq_iff hwithin).mp (readClock_bytes hread).symm
    rw [digits_inj (ht.trans hbytes)]
    exact hcount
  · intro hcount
    obtain ⟨s', hread⟩ := gives_readClock { s with rtc := r }
    refine ⟨r, hr, t', s', ?_, hcount⟩
    rw [← (bytes_eq_iff hwithin).mpr ht.symm]
    exact hread

/-- What has to hold of the seconds that are over. -/
theorem keeps_iff (h : Given t s) (elapsed : ℕ → ℕ) : Keeps t elapsed s ↔ t.Small ∧
    ∀ n, (t.number + (s.rtc.vsyncs + n) / 60) % century = (t.number + elapsed n) % century := by
  have hwrite := gives_writeClock s
  have hrtc : (s.answered 0x09 [0]).rtc = written s := rfl
  have hvsyncs : (s.answered 0x09 [0]).rtc.vsyncs = s.rtc.vsyncs := rfl
  constructor
  · rintro ⟨s₁, hs₁, ⟨s₂, hread⟩, hreads⟩
    obtain rfl : s.answered 0x09 [0] = s₁ := by
      unfold Gives at hwrite hs₁
      cases hwrite.symm.trans hs₁
      rfl
    have hdigits := (bytes_eq_iff h.within).mp (hrtc ▸ (readClock_bytes hread).symm)
    refine ⟨h.digits_iff.mp hdigits, fun n => ?_⟩
    rw [← hvsyncs]
    exact (reads_iff (hrtc ▸ hdigits) elapsed n).mp (hreads n)
  · rintro ⟨hsmall, hcount⟩
    have hdigits := h.digits_iff.mpr hsmall
    obtain ⟨s₂, hread⟩ := gives_readClock (s.answered 0x09 [0])
    rw [hrtc, (bytes_eq_iff h.within).mpr hdigits] at hread
    refine ⟨_, hwrite, ⟨s₂, hread⟩, fun n => ?_⟩
    rw [reads_iff (hrtc ▸ hdigits), hvsyncs]
    exact hcount n

/-- **The clock.** By the whole seconds since the command it is right if the vsyncs of a second begin with the
command, too; by the seconds that the drive counts, which go on over the command, if the fields are small. -/
theorem clock_iff (t : Moment) (s : Mechacon) (h : Given t s) :
    (Keeps t (fun n => n / 60) s ↔ t.Small ∧ s.rtc.vsyncs = 0) ∧
      (Keeps t (fun n => (s.rtc.vsyncs + n) / 60) s ↔ t.Small) := by
  rw [keeps_iff h, keeps_iff h]
  refine ⟨and_congr_right fun _ => ⟨fun hcount => ?_, fun hzero n => ?_⟩, and_iff_left fun _ => rfl⟩
  · by_contra hne
    have hlt := s.rtc.vsyncs_lt
    have hfirst := hcount (60 - s.rtc.vsyncs)
    rw [show (s.rtc.vsyncs + (60 - s.rtc.vsyncs)) / 60 = 1 by omega,
      show (60 - s.rtc.vsyncs) / 60 = 0 by omega] at hfirst
    exact number_succ_ne t (hfirst.trans (Nat.mod_eq_of_lt (number_lt t)))
  · rw [hzero, Nat.zero_add]

/-- The ninth of September 2009, at nine minutes past nine. -/
def september : Moment :=
  { second := 9, minute := 9, hour := 9, day := 9, month := 9, year := 9, second_lt := by decide
    minute_lt := by decide, hour_lt := by decide, day_pos := by decide, day_le := by decide, month_pos := by decide
    month_le := by decide, year_lt := by decide }

/-- A second later. -/
def later : Moment := { september with second := 10, second_lt := by decide }

/-- A drive that has been given the moment. -/
def given (t : Moment) : Mechacon where
  rtc := ⟨0, 0, 0, 0, 1, 1, 0, zero_lt_sixty⟩
  SCommand := 0
  SCommandParams := fun i =>
    [bcd t.second, bcd t.minute, bcd t.hour, 0, bcd t.day, bcd t.month, bcd t.year].getD i 0
  SOutdata := fun _ => 0
  SParams := 7
  SOutParams := 0
  SStatus := 0x40

theorem given_given (t : Moment) : Given t (given t) := ⟨rfl, rfl, rfl, rfl, rfl, rfl⟩

theorem clock_iff_september :
    (Keeps september (fun n => n / 60) (given september) ↔ september.Small ∧ (given september).rtc.vsyncs = 0) ∧
      (Keeps september (fun n => ((given september).rtc.vsyncs + n) / 60) (given september) ↔ september.Small) :=
  clock_iff september (given september) (given_given september)

/-- The second ten is read as 16. -/
theorem not_clock : ¬ ∀ (t : Moment) (s : Mechacon), Given t s → Keeps t (fun n => n / 60) s := by
  intro h
  obtain ⟨⟨hsecond, -⟩, -⟩ := (keeps_iff (given_given later) _).mp (h later (given later) (given_given later))
  exact absurd hsecond (by decide)

example : century = 36525 * 86400 := by decide

end DobieStation.Cdvd.Clock
