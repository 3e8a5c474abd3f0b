import Mathlib.Logic.Function.Iterate
import WireBench.Clock
import WireBench.Proofs.Utf8Bytes

/-!
# Dates of the calendar

The date of a day is the one of the calendar: that of day zero is known, and the date of the next
day is the next date, in months of their lengths and with the leap days. So a date has a month and a
day that there are, and a time of day has its hours, minutes and seconds.
-/

namespace WireBench.Clock

/-- Whether a year has a leap day: every fourth has one, but of full centuries only every fourth. -/
def IsLeapYear (year : Int) : Prop :=
  year % 4 = 0 ∧ (year % 100 = 0 → year % 400 = 0)

instance (year : Int) : Decidable (IsLeapYear year) :=
  inferInstanceAs (Decidable (_ ∧ _))

def monthLength (year : Int) (month : Nat) : Nat :=
  if month = 2 then if IsLeapYear year then 29 else 28
  else if month = 4 ∨ month = 6 ∨ month = 9 ∨ month = 11 then 30
  else 31

namespace Date

/-- Whether the calendar has this date. -/
structure IsValid (date : Date) : Prop where
  month_pos : 1 ≤ date.month
  month_le : date.month ≤ 12
  day_pos : 1 ≤ date.day
  day_le : date.day ≤ monthLength date.year date.month

/-- The date of the next day. -/
def next (date : Date) : Date :=
  if date.day < monthLength date.year date.month then { date with day := date.day + 1 }
  else if date.month < 12 then ⟨date.year, date.month + 1, 1⟩
  else ⟨date.year + 1, 1, 1⟩

variable {date : Date}

theorem next_of_lt (h : date.day < monthLength date.year date.month) :
    date.next = { date with day := date.day + 1 } :=
  if_pos h

theorem next_of_last (h : date.day = monthLength date.year date.month) :
    date.next =
      if date.month < 12 then ⟨date.year, date.month + 1, 1⟩ else ⟨date.year + 1, 1, 1⟩ :=
  if_neg (Nat.not_lt_of_le (Nat.le_of_eq h.symm))

end Date

/-! ### Years that start in March -/

/-- The month of a day counted from the start of March. -/
def marchMonth (day : Nat) : Nat :=
  if (5 * day + 2) / 153 < 10 then (5 * day + 2) / 153 + 3 else (5 * day + 2) / 153 - 9

def marchDay (day : Nat) : Nat :=
  day - (153 * ((5 * day + 2) / 153) + 2) / 5 + 1

def ofMarch (year : Int) (day : Nat) : Date :=
  ⟨if marchMonth day ≤ 2 then year + 1 else year, marchMonth day, marchDay day⟩

/-- The length of a month of a year without a leap day. -/
def commonLength (month : Nat) : Nat :=
  if month = 2 then 28
  else if month = 4 ∨ month = 6 ∨ month = 9 ∨ month = 11 then 30
  else 31

variable {year : Int} {month day : Nat}

theorem monthLength_of_ne (h : month ≠ 2) : monthLength year month = commonLength month := by
  rw [monthLength, commonLength, if_neg h, if_neg h]

theorem commonLength_le (year : Int) (month : Nat) :
    commonLength month ≤ monthLength year month := by
  by_cases h : month = 2
  · subst h
    by_cases hleap : IsLeapYear year <;> simp [commonLength, monthLength, hleap]
  · exact Nat.le_of_eq (monthLength_of_ne h).symm

/-- Within the first 364 days of a year that starts in March, a day is followed by the next one of
its month or, if it is the last one, by the first of the next month. -/
theorem march_step : ∀ day < 364,
    (marchDay day < commonLength (marchMonth day) ∧ marchMonth (day + 1) = marchMonth day ∧
        marchDay (day + 1) = marchDay day + 1) ∨
      (marchDay day = commonLength (marchMonth day) ∧ marchMonth day ≠ 2 ∧
        marchDay (day + 1) = 1 ∧
        if marchMonth day < 12 then
          marchMonth (day + 1) = marchMonth day + 1 ∧
            (marchMonth day + 1 ≤ 2 ↔ marchMonth day ≤ 2)
        else marchMonth (day + 1) = 1 ∧ ¬ marchMonth day ≤ 2) := by
  decide +kernel

theorem next_ofMarch (h : day < 364) : (ofMarch year day).next = ofMarch year (day + 1) := by
  rcases march_step day h with ⟨hday, hmonth, hnext⟩ | ⟨hday, hmonth, hfirst, hnext⟩
  · rw [Date.next_of_lt (Nat.lt_of_lt_of_le hday (commonLength_le _ _))]
    simp only [ofMarch, hmonth, hnext]
  · rw [Date.next_of_last (hday.trans (monthLength_of_ne hmonth).symm)]
    by_cases hdecember : marchMonth day < 12
    · rw [if_pos hdecember] at hnext
      simp only [ofMarch, hfirst, hnext.2, hnext.1, hdecember, if_true]
    · rw [if_neg hdecember] at hnext
      simp only [ofMarch, hfirst, hnext.1, hnext.2, hdecember, if_false]
      rfl

theorem next_ofMarch_last (h : day = if IsLeapYear (year + 1) then 365 else 364) :
    (ofMarch year day).next = ofMarch (year + 1) 0 := by
  have hlast : (ofMarch year day).day = monthLength (year + 1) 2 := by
    by_cases hleap : IsLeapYear (year + 1) <;> simp [h, hleap, ofMarch, marchDay, monthLength]
  have hdate : ofMarch year day = ⟨year + 1, 2, (ofMarch year day).day⟩ := by
    by_cases hleap : IsLeapYear (year + 1) <;> simp [h, hleap, ofMarch, marchMonth]
  rw [hdate, Date.next_of_last hlast]
  rfl

theorem next_ofMarch_leap (h : IsLeapYear (year + 1)) :
    (ofMarch year 364).next = ofMarch year 365 := by
  have hlt : 28 < monthLength (year + 1) 2 := by
    simp [monthLength, h]
  exact Date.next_of_lt hlt

/-! ### Eras -/

/-- Where a day stands that is counted from the start of March of the year 0: in which era of 400
years, in which century of this, in which four years of that, in which year of these, and which day
of the year it is. A year has a leap day if it is the last of its four years and these are not the
last of a century, unless that is the last of its era. -/
structure Place where
  era : Int
  century : Nat
  four : Nat
  year : Nat
  day : Nat
  century_le : century ≤ 3
  four_le : four ≤ 24
  year_le : year ≤ 3
  day_le : day ≤ 365
  of_leap : day = 365 → year = 3 ∧ (four = 24 → century = 3)

namespace Place

variable (place : Place)

def dayOfEra : Nat :=
  36524 * place.century + 1461 * place.four + 365 * place.year + place.day

def yearOfEra : Nat :=
  100 * place.century + 4 * place.four + place.year

def toDay : Int :=
  146097 * place.era + place.dayOfEra

def marchYear : Int :=
  place.yearOfEra + place.era * 400

theorem dayOfEra_lt : place.dayOfEra < 146097 := by
  obtain ⟨_, century, four, year, day, hcentury, hfour, hyear, hday, hleap⟩ := place
  simp only [dayOfEra]
  omega

/-- Days that come too early or late for the mean year are made up for by the other terms. -/
theorem yearOfEra_eq :
    (place.dayOfEra - place.dayOfEra / 1460 + place.dayOfEra / 36524 -
      place.dayOfEra / 146096) / 365 = place.yearOfEra := by
  obtain ⟨_, century, four, year, day, hcentury, hfour, hyear, hday, hleap⟩ := place
  simp only [dayOfEra, yearOfEra]
  generalize hn : 36524 * century + 1461 * four + 365 * year + day = n
  have hcenturies : n / 36524 - n / 146096 = century := by
    subst hn
    omega
  have hcarried :
      n / 1460 = 25 * century + four + (24 * century + four + 365 * year + day) / 1460 := by
    subst hn
    omega
  have hle : n / 146096 ≤ n / 36524 := by omega
  omega

theorem dayOfYear_eq :
    place.dayOfEra - (365 * place.yearOfEra + place.yearOfEra / 4 - place.yearOfEra / 100) =
      place.day := by
  obtain ⟨_, century, four, year, day, hcentury, hfour, hyear, hday, hleap⟩ := place
  simp only [dayOfEra, yearOfEra]
  omega

theorem exists_dayOfEra_eq (era : Int) {n : Nat} (h : n < 146097) :
    ∃ place : Place, place.era = era ∧ place.dayOfEra = n := by
  by_cases hlast : n = 146096
  · refine ⟨⟨era, 3, 24, 3, 365, by omega, by omega, by omega, by omega, by omega⟩, rfl, ?_⟩
    simp only [dayOfEra]
    omega
  · refine ⟨⟨era, n / 36524, n % 36524 / 1461, min 3 (n % 36524 % 1461 / 365),
      n % 36524 % 1461 - 365 * min 3 (n % 36524 % 1461 / 365), ?_, ?_, ?_, ?_, ?_⟩, rfl, ?total⟩
    case total =>
      simp only [dayOfEra]
      omega
    all_goals omega

theorem exists_toDay_eq (days : Int) : ∃ place : Place, place.toDay = days := by
  obtain ⟨place, hera, hday⟩ := @exists_dayOfEra_eq (days / 146097) (days % 146097).toNat (by omega)
  refine ⟨place, ?_⟩
  rw [toDay, hera, hday]
  omega

theorem dateOfDay_eq {days : Int} (h : days + 719468 = place.toDay) :
    dateOfDay days = ofMarch place.marchYear place.day := by
  have hlt := place.dayOfEra_lt
  rw [toDay] at h
  have hera : (days + 719468).fdiv 146097 = place.era := by
    rw [Int.fdiv_eq_ediv_of_nonneg _ (by decide)]
    omega
  have hofEra : ((days + 719468).fmod 146097).toNat = place.dayOfEra := by
    rw [Int.fmod_eq_emod_of_nonneg _ (by decide)]
    omega
  simp only [dateOfDay, hera, hofEra, place.yearOfEra_eq, place.dayOfYear_eq]
  rfl

theorem isLeapYear_iff : IsLeapYear (place.marchYear + 1) ↔
    place.year = 3 ∧ (place.four = 24 → place.century = 3) := by
  obtain ⟨era, century, four, year, day, hcentury, hfour, hyear, hday, hleap⟩ := place
  simp only [IsLeapYear, marchYear, yearOfEra]
  omega

theorem exists_tomorrow (h : place.day < 364 ∨ place.day = 364 ∧ IsLeapYear (place.marchYear + 1)) :
    ∃ tomorrow : Place, tomorrow.toDay = place.toDay + 1 ∧
      tomorrow.marchYear = place.marchYear ∧ tomorrow.day = place.day + 1 := by
  rw [isLeapYear_iff] at h
  refine ⟨{ place with day := place.day + 1, day_le := ?_, of_leap := ?_ }, ?total, rfl, rfl⟩
  case total =>
    simp only [toDay, dayOfEra]
    omega
  all_goals omega

theorem exists_first_day {day year : Int} (era : Int) (century four yearOfFour : Nat)
    (hcentury : century ≤ 3) (hfour : four ≤ 24) (hyear : yearOfFour ≤ 3)
    (hday : day = 146097 * era + (36524 * century + 1461 * four + 365 * yearOfFour : Nat))
    (hmarch : year = (100 * century + 4 * four + yearOfFour : Nat) + era * 400) :
    ∃ first : Place, first.toDay = day ∧ first.marchYear = year ∧ first.day = 0 := by
  refine ⟨⟨era, century, four, yearOfFour, 0, hcentury, hfour, hyear, Nat.zero_le _, ?_⟩, ?_, ?_, rfl⟩
  · intro h
    cases h
  · simp only [toDay, dayOfEra]
    omega
  · simp only [marchYear, yearOfEra]
    omega

/-- The day after the last of a year, which is the first of the next one: of the same four years, or
of the next ones of the century, of the next century or of the next era. -/
theorem exists_new_year (h : place.day = if IsLeapYear (place.marchYear + 1) then 365 else 364) :
    ∃ tomorrow : Place, tomorrow.toDay = place.toDay + 1 ∧
      tomorrow.marchYear = place.marchYear + 1 ∧ tomorrow.day = 0 := by
  simp only [isLeapYear_iff] at h
  obtain ⟨era, century, four, year, day, hcentury, hfour, hyear, hday, hleap⟩ := place
  simp only [toDay, dayOfEra, marchYear, yearOfEra] at h ⊢
  by_cases hyears : year < 3
  · rw [if_neg (by omega)] at h
    exact exists_first_day era century four (year + 1) hcentury hfour hyears (by omega) (by omega)
  · by_cases hfours : four < 24
    · rw [if_pos (by omega)] at h
      exact exists_first_day era century (four + 1) 0 hcentury hfours (by omega) (by omega)
        (by omega)
    · by_cases hcenturies : century < 3
      · rw [if_neg (by omega)] at h
        exact exists_first_day era (century + 1) 0 0 hcenturies (by omega) (by omega) (by omega)
          (by omega)
      · rw [if_pos (by omega)] at h
        exact exists_first_day (era + 1) 0 0 0 (by omega) (by omega) (by omega) (by omega)
          (by omega)

theorem day_cases :
    place.day < 364 ∨ (place.day = 364 ∧ IsLeapYear (place.marchYear + 1)) ∨
      place.day = if IsLeapYear (place.marchYear + 1) then 365 else 364 := by
  have hday := place.day_le
  have hof := place.of_leap
  simp only [isLeapYear_iff]
  split <;> omega

end Place

theorem dateOfDay_zero : dateOfDay 0 = ⟨1970, 1, 1⟩ := by decide

/-- The date of the next day is the next date. -/
theorem dateOfDay_succ (days : Int) : dateOfDay (days + 1) = (dateOfDay days).next := by
  obtain ⟨place, hplace⟩ := Place.exists_toDay_eq (days + 719468)
  have hsucc : days + 1 + 719468 = place.toDay + 1 := by omega
  rw [place.dateOfDay_eq hplace.symm]
  rcases place.day_cases with hday | ⟨hday, hleap⟩ | hday
  · obtain ⟨tomorrow, htoDay, hyear, hnext⟩ := place.exists_tomorrow (.inl hday)
    rw [tomorrow.dateOfDay_eq (hsucc.trans htoDay.symm), hyear, hnext, next_ofMarch hday]
  · obtain ⟨tomorrow, htoDay, hyear, hnext⟩ := place.exists_tomorrow (.inr ⟨hday, hleap⟩)
    rw [tomorrow.dateOfDay_eq (hsucc.trans htoDay.symm), hyear, hnext, hday,
      next_ofMarch_leap hleap]
  · obtain ⟨tomorrow, htoDay, hyear, hnext⟩ := place.exists_new_year hday
    rw [tomorrow.dateOfDay_eq (hsucc.trans htoDay.symm), hyear, hnext, next_ofMarch_last hday]

/-- The date of a day from 1970 on is found by counting the days on the calendar. -/
theorem dateOfDay_natCast (n : Nat) : dateOfDay n = Nat.iterate Date.next n ⟨1970, 1, 1⟩ := by
  induction n with
  | zero => exact dateOfDay_zero
  | succ n ih => rw [Function.iterate_succ_apply', ← ih, ← dateOfDay_succ, Int.natCast_succ]

/-- The day of a year that starts in March has a month and a day of that month. -/
theorem march_bounds : ∀ day < 366, 1 ≤ marchMonth day ∧ marchMonth day ≤ 12 ∧
    1 ≤ marchDay day ∧ marchDay day ≤ commonLength (marchMonth day) + day / 365 ∧
      (day = 365 → marchMonth day = 2) := by
  decide +kernel

/-- The date of a day is one that the calendar has. -/
theorem isValid_dateOfDay (days : Int) : (dateOfDay days).IsValid := by
  obtain ⟨place, hplace⟩ := Place.exists_toDay_eq (days + 719468)
  rw [place.dateOfDay_eq hplace.symm]
  obtain ⟨hpos, hle, hday, hlast, hfebruary⟩ :=
    march_bounds place.day (Nat.lt_succ_of_le place.day_le)
  refine ⟨hpos, hle, hday, ?_⟩
  by_cases hleap : place.day = 365
  · have hyear := place.isLeapYear_iff.2 (place.of_leap hleap)
    simp [ofMarch, hleap, marchMonth, marchDay, monthLength, hyear]
  · have hlt : place.day < 365 := Nat.lt_of_le_of_ne place.day_le hleap
    rw [Nat.div_eq_of_lt hlt] at hlast
    exact Nat.le_trans hlast (commonLength_le _ _)

/-! ### Times of day -/

theorem time_bounds (moment : Moment) :
    moment.time.hour < 24 ∧ moment.time.minute < 60 ∧ moment.time.second ≤ 60 := by
  have hmod : (moment.localSeconds.fmod 86400).toNat < 86400 := by
    rw [Int.fmod_eq_emod_of_nonneg _ (by decide)]
    omega
  simp only [Moment.time]
  split <;> omega

/-! ### Stamps -/

/-- Whether characters are the decimal digits of a number, so many of them. -/
structure AreDigits (width n : Nat) (cs : List Char) : Prop where
  length_eq : cs.length = width
  isDigit : ∀ c ∈ cs, c.isDigit = true
  value_eq : Nat.ofDigitChars 10 cs 0 = n

theorem AreDigits.toNat_lt {width n : Nat} {cs : List Char} (h : AreDigits width n cs) :
    ∀ c ∈ cs, c.toNat < 128 := by
  intro c hc
  have hrange := Char.isDigit_iff_toNat.1 (h.isDigit c hc)
  exact Nat.lt_of_le_of_lt hrange.2 (by decide)

theorem areDigits_padded {width n : Nat} (h : (Nat.toDigits 10 n).length ≤ width) :
    AreDigits width n (padded width n).toList := by
  rw [padded, String.toList_ofList]
  refine ⟨?_, fun c hc => ?_, ?_⟩
  · rw [List.length_append, List.length_replicate, Nat.sub_add_cancel h]
  · rcases List.mem_append.1 hc with hc | hc
    · exact (List.mem_replicate.1 hc).2 ▸ rfl
    · exact Nat.isDigit_of_mem_toDigits (by decide) (by decide) hc
  · rw [Nat.ofDigitChars_append, Nat.ofDigitChars_replicate_zero, Nat.mul_zero,
      Nat.ofDigitChars_ten_toDigits]

/-- Whether a text tells a date and a time in nineteen characters: the year in four digits and all
else in two. -/
def IsStamp (date : Date) (time : TimeOfDay) (stamp : String) : Prop :=
  ∃ year month day hour minute second,
    stamp.toList = year ++ '-' :: (month ++ '-' :: (day ++ ' ' :: (hour ++ ':' :: (minute ++ ':' ::
      second)))) ∧
    AreDigits 4 date.year.toNat year ∧ AreDigits 2 date.month month ∧ AreDigits 2 date.day day ∧
      AreDigits 2 time.hour hour ∧ AreDigits 2 time.minute minute ∧
        AreDigits 2 time.second second

/-- What the date and the time of a moment look like in front of a message. -/
def stamp (moment : Moment) : String :=
  moment.date.toText ++ " " ++ moment.time.toText

theorem stamped_eq (message : String) (moment : Moment) :
    stamped message moment = "[" ++ stamp moment ++ "] " ++ message := by
  simp only [stamped, stamp, String.append_assoc]

theorem isStamp_stamp {moment : Moment} (hfrom : 0 ≤ moment.date.year)
    (hto : moment.date.year ≤ 9999) : IsStamp moment.date moment.time (stamp moment) := by
  have hvalid : moment.date.IsValid := isValid_dateOfDay _
  obtain ⟨hhour, hminute, hsecond⟩ := time_bounds moment
  have hday : monthLength moment.date.year moment.date.month ≤ 31 := by
    unfold monthLength
    repeat' split
    all_goals omega
  have hlast := hvalid.day_le
  have hmonth := hvalid.month_le
  have hyear : (Nat.toDigits 10 moment.date.year.toNat).length ≤ 4 :=
    (Nat.length_toDigits_le_iff (by decide) (by decide)).2 (by omega)
  have htwo : ∀ {n : Nat}, n < 100 → (Nat.toDigits 10 n).length ≤ 2 := fun h =>
    (Nat.length_toDigits_le_iff (by decide) (by decide)).2 h
  refine ⟨_, _, _, _, _, _, ?_, areDigits_padded hyear, areDigits_padded (htwo ?_),
    areDigits_padded (htwo ?_), areDigits_padded (htwo ?_), areDigits_padded (htwo ?_),
    areDigits_padded (htwo ?_)⟩
  · simp [stamp, Date.toText, TimeOfDay.toText, yearText, hfrom, hto]
  all_goals omega

theorem IsStamp.length_encode {date : Date} {time : TimeOfDay} {stamp : String}
    (h : IsStamp date time stamp) : (Utf8.encode stamp).length = 19 := by
  obtain ⟨year, month, day, hour, minute, second, hshape, hyear, hmonth, hday, hhour, hminute,
    hsecond⟩ := h
  have hascii : ∀ c ∈ stamp.toList, c.toNat < 128 := by
    rw [hshape]
    simp only [List.forall_mem_append, List.forall_mem_cons]
    exact ⟨hyear.toNat_lt, by decide, hmonth.toNat_lt, by decide, hday.toNat_lt, by decide,
      hhour.toNat_lt, by decide, hminute.toNat_lt, by decide, hsecond.toNat_lt⟩
  rw [Utf8.length_encode_ascii hascii, hshape]
  simp [hyear.length_eq, hmonth.length_eq, hday.length_eq, hhour.length_eq, hminute.length_eq,
    hsecond.length_eq]

end WireBench.Clock
