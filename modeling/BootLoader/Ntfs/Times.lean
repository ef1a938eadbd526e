import BootLoader.Lib.Calendar
import BootLoader.Video.Print

/-!
# Timestamps (`bl_ntfs_dump_file_time` of `modules/fs/ntfs/ntfs.c`)

The month is looked for by the days that are left of the year, and the zeros at the end of a number
are not printed.
-/

open ByteMemory Calendar

namespace BootLoader.Ntfs

open Utils Video

def slash : Byte := 0x2f
def comma : Byte := 0x2c
def colon : Byte := 0x3a
def dot : Byte := 0x2e

/-! ## The code -/

/-- `IS_LEAP_YEAR`. -/
def isLeapYear (yy : Nat) : Bool := (yy % 4 = 0 ∧ yy % 100 ≠ 0) ∨ yy % 400 = 0

/-- `year_lengths[IS_LEAP_YEAR(yy)]`. -/
def yearLength (yy : Nat) : Nat := if isLeapYear yy then 366 else 365

theorem yearLength_pos (yy : Nat) : 0 < yearLength yy := by
  unfold yearLength
  split_ifs <;> decide

/-- The loop for the year: `yy`, and the days up to its end. -/
def yearFrom (days d yy : Nat) : Nat × Nat :=
  if days < d + yearLength yy then (yy, d + yearLength yy)
  else yearFrom days (d + yearLength yy) (yy + 1)
termination_by days + 1 - d
decreasing_by
  have := yearLength_pos yy
  omega

/-- `month_lengths`, for the year `yy`. -/
def monthLengths (yy : Nat) : List Nat :=
  [31, if isLeapYear yy then 29 else 28, 31, 30, 31, 30, 31, 31, 30, 31, 30, 31]

/-- The loop for the month from `i` on, with `left` rounds to go, for `rest` days up to the year's
end; `none` if a length outside the table is read. No difference here is below 0. -/
def monthFrom (lengths : List Nat) (rest : Nat) : Nat → Nat → Nat → Option (List Byte)
  | 0, _, _ => some []
  | left + 1, i, mmdd =>
    if rest ≤ mmdd then
      (if i = 0 then none else lengths[i - 1]?).map fun length =>
        blPrintDecimal (i + 1) ++ slash ::
          (blPrintDecimal ((rest - (mmdd - length)) % 2 ^ 32) ++ [comma])
    else lengths[i]?.bind fun length => monthFrom lengths rest left (i + 1) (mmdd + length)

def blNtfsDumpFileTime (time : BitVec 64) : Option (List Byte) :=
  let (secs, ns) := blDivmod64 time 10000000
  let (days, hhmmss) := blDivmod64 secs 86400
  let (yy, d) := yearFrom days.toNat 0 1601
  let hhmmss := hhmmss.toNat % 2 ^ 32
  (monthFrom (monthLengths yy) ((d - days.toNat) % 2 ^ 32) 12 0 0).map fun month =>
    blPrintDecimal yy ++ slash :: (month ++ (blPrintDecimal (hhmmss / 3600) ++ colon ::
      (blPrintDecimal (hhmmss % 3600 / 60) ++ colon ::
        (blPrintDecimal (hhmmss % 60) ++ dot :: blPrintDecimal64 ns))))

/-! ## The instant -/

/-- A date, and the time of that day. -/
structure Instant where
  date : Date
  hour : Nat
  minute : Nat
  second : Nat
  remainder : Nat
  year_ge : 1601 ≤ date.year
  hour_lt : hour < 24
  minute_lt : minute < 60
  second_lt : second < 60
  remainder_lt : remainder < 10000000

/-- In units of 100 ns since 1601-01-01. -/
def Instant.time (t : Instant) : Nat :=
  (((t.date.number 1601 * 24 + t.hour) * 60 + t.minute) * 60 + t.second) * 10000000 + t.remainder

def Instant.text (t : Instant) : List Byte :=
  decimal t.date.year ++ slash :: (decimal t.date.month ++ slash :: (decimal t.date.day ++
    comma :: (decimal t.hour ++ colon :: (decimal t.minute ++ colon ::
      (decimal t.second ++ dot :: decimal t.remainder)))))

/-- July 17 is as far from the year's end as from its beginning, but for the month; so is July 3 of
a leap year from the 30th. No number of the instant ends in 0. -/
structure Mirrored (t : Instant) : Prop where
  date : t.date.month = 7 ∧ t.date.day = if isLeap t.date.year then 3 else 17
  year : t.date.year % 10 ≠ 0
  hour : t.hour % 10 ≠ 0
  minute : t.minute % 10 ≠ 0
  second : t.second % 10 ≠ 0
  remainder : t.remainder % 10 ≠ 0

/-! ## The year -/

variable {days : Nat} {t : Instant} {time : BitVec 64}

theorem isLeapYear_eq (yy : Nat) : isLeapYear yy = isLeap yy := by
  unfold isLeapYear isLeap
  simp only [Nat.dvd_iff_mod_eq_zero, ne_eq]

theorem yearLength_eq (yy : Nat) : yearLength yy = lengthOfYear (isLeap yy) := by
  unfold yearLength lengthOfYear
  rw [isLeapYear_eq]

theorem monthLengths_eq (yy : Nat) : monthLengths yy = lengthsOfMonths (isLeap yy) := by
  unfold monthLengths lengthsOfMonths
  rw [isLeapYear_eq]

theorem yearFrom_eq {year yy : Nat} (hstart : 1601 ≤ yy) (hyy : yy ≤ year)
    (hle : daysBeforeYear 1601 year ≤ days) (hlt : days < daysBeforeYear 1601 (year + 1)) :
    yearFrom days (daysBeforeYear 1601 yy) yy = (year, daysBeforeYear 1601 (year + 1)) := by
  induction h : year - yy generalizing yy with
  | zero =>
    obtain rfl : yy = year := by omega
    rw [yearFrom, yearLength_eq, ← daysBeforeYear_succ hstart, if_pos hlt]
  | succ n ih =>
    have hgoes := daysBeforeYear_mono 1601 (show yy + 1 ≤ year by omega)
    rw [yearFrom, yearLength_eq, ← daysBeforeYear_succ hstart, if_neg (by omega)]
    exact ih (by omega) (by omega) (by omega)

theorem yearFrom_date (date : Date) (h : 1601 ≤ date.year) :
    yearFrom (date.number 1601) 0 1601 = (date.year, daysBeforeYear 1601 (date.year + 1)) := by
  have hstart := yearFrom_eq le_rfl h (Nat.le_add_right _ _) (date.number_lt h)
  rwa [daysBeforeYear_self] at hstart

/-! ## The month -/

theorem lengthsOfMonths_getElem? : ∀ leap : Bool, ∀ i < 12,
    (lengthsOfMonths leap)[i]? = some (lengthOfMonth leap (i + 1)) := by
  decide

theorem daysBeforeMonth_succ : ∀ leap : Bool, ∀ i < 12,
    daysBeforeMonth leap (i + 1 + 1) =
      daysBeforeMonth leap (i + 1) + lengthOfMonth leap (i + 1) := by
  decide

variable {leap : Bool} {month day rest k : Nat}

theorem monthFrom_passes (hmonth : month ∈ Finset.Icc 1 12)
    (hrest : daysBeforeMonth leap month < rest) (hk : k ≤ month) :
    monthFrom (lengthsOfMonths leap) rest 12 0 0 =
      monthFrom (lengthsOfMonths leap) rest (12 - k) k (daysBeforeMonth leap (k + 1)) := by
  induction k with
  | zero => rfl
  | succ k ih =>
    have hbound := Finset.mem_Icc.mp hmonth
    have hnotYet : daysBeforeMonth leap (k + 1) < rest := by
      rcases hk.eq_or_lt with heq | hlt
      · rwa [heq]
      · have hapart := months_apart leap (k + 1) (Finset.mem_Icc.mpr (by omega)) month hmonth hlt
        omega
    have hleft : 12 - k = 12 - (k + 1) + 1 := by omega
    rw [ih (by omega), hleft, monthFrom, if_neg hnotYet.not_ge,
      lengthsOfMonths_getElem? leap k (by omega), Option.bind_some,
      daysBeforeMonth_succ leap k (by omega)]

/-- What is printed of the month, `day` being the place of the days left in the month that they
reach into: the month after it, and nothing when that one is the last. -/
theorem monthFrom_eq (hmonth : month ∈ Finset.Icc 1 12)
    (hday : day ∈ Finset.Icc 1 (lengthOfMonth leap month)) :
    monthFrom (lengthsOfMonths leap) (daysBeforeMonth leap month + day) 12 0 0 =
      some (if month = 12 then []
        else blPrintDecimal (month + 1) ++ slash :: (blPrintDecimal day ++ [comma])) := by
  have hbound := Finset.mem_Icc.mp hmonth
  rw [Finset.mem_Icc] at hday
  rw [monthFrom_passes hmonth (by omega) le_rfl]
  split_ifs with hlast
  · rw [hlast]
    rfl
  · have hleft : 12 - month = 12 - (month + 1) + 1 := by omega
    have hsucc := daysBeforeMonth_succ leap (month - 1) (by omega)
    have hlength := lengthsOfMonths_getElem? leap (month - 1) (by omega)
    rw [Nat.sub_add_cancel hbound.1] at hsucc hlength
    have hfits := month_fits leap month hmonth
    have hyear : lengthOfYear leap ≤ 366 := by cases leap <;> decide
    have hrest : (daysBeforeMonth leap month + day -
        (daysBeforeMonth leap (month + 1) - lengthOfMonth leap month)) % 2 ^ 32 = day := by
      omega
    rw [hleft, monthFrom, if_pos (by omega), if_neg (by omega), hlength, Option.map_some, hrest]

theorem lengthOfMonth_le : ∀ leap : Bool, ∀ month, 1 ≤ month ∧ month ≤ 12 →
    lengthOfMonth leap month ≤ 31 := by
  rintro leap month ⟨hfrom, hto⟩
  cases leap <;> interval_cases month <;> decide

theorem eq_or_ten_mul {a b k : Nat} (hb : 1 ≤ b) (ha : a < 100) (h : a = b * 10 ^ k) :
    a = b ∨ a = 10 * b := by
  rcases k with _ | _ | k
  · exact Or.inl (by simpa using h)
  · exact Or.inr (by rw [h]; ring)
  · have hlarge : b * 100 ≤ b * 10 ^ (k + 1 + 1) := by
      refine Nat.mul_le_mul_left b ?_
      rw [pow_succ, pow_succ]
      have := Nat.pow_pos (n := k) (show 0 < 10 by omega)
      omega
    omega

/-- The month and day after the days left, as they are printed, are those of the date on July 17,
and in a leap year on July 3. -/
theorem mirror_iff {month' day' : Nat} (hmonth : month ∈ Finset.Icc 1 12)
    (hday : day ∈ Finset.Icc 1 (lengthOfMonth leap month)) (hmonth' : month' ∈ Finset.Icc 1 11)
    (hday' : day' ∈ Finset.Icc 1 (lengthOfMonth leap month'))
    (h : daysBeforeMonth leap month + (day - 1) + (daysBeforeMonth leap month' + day') =
      lengthOfYear leap) :
    ((month % 10 ≠ 0 ∧ (month' + 1 = month ∨ month' + 1 = 10 * month)) ∧
      day % 10 ≠ 0 ∧ (day' = day ∨ day' = 10 * day)) ↔
        month = 7 ∧ day = if leap then 3 else 17 := by
  rw [Finset.mem_Icc] at hmonth hday hmonth' hday'
  obtain ⟨hfrom, hto⟩ := hmonth'
  constructor
  · rintro ⟨⟨-, hmonths⟩, -, hdays⟩
    rcases hmonths with rfl | hten
    · cases leap <;> interval_cases month' <;>
        simp [daysBeforeMonth, lengthOfMonth, lengthsOfMonths, lengthOfYear] at h hday hday' ⊢ <;>
        omega
    · obtain rfl : month = 1 := by omega
      obtain rfl : month' = 9 := by omega
      cases leap <;>
        simp [daysBeforeMonth, lengthOfMonth, lengthsOfMonths, lengthOfYear] at h hday hday' <;>
        omega
  · rintro ⟨rfl, rfl⟩
    cases leap <;> interval_cases month' <;>
      simp [daysBeforeMonth, lengthOfMonth, lengthsOfMonths, lengthOfYear] at h hday' ⊢ <;>
      omega

/-! ## The text -/

theorem year_lt (t : Instant) (h : t.time = time.toNat) : t.date.year < 10 ^ 9 := by
  have hdays := year_le_daysBeforeYear t.year_ge
  have hnumber : daysBeforeYear 1601 t.date.year ≤ t.date.number 1601 := Nat.le_add_right _ _
  have hlt := time.isLt
  unfold Instant.time at h
  omega

theorem blNtfsDumpFileTime_eq (t : Instant) (h : t.time = time.toNat) :
    ∃ month ∈ Finset.Icc 1 12, ∃ day ∈ Finset.Icc 1 (lengthOfMonth (isLeap t.date.year) month),
      t.date.dayOfYear + (daysBeforeMonth (isLeap t.date.year) month + day) =
        lengthOfYear (isLeap t.date.year) ∧
      ∃ ns, ns.toNat = t.remainder ∧ blNtfsDumpFileTime time =
        some (blPrintDecimal t.date.year ++ slash :: ((if month = 12 then []
            else blPrintDecimal (month + 1) ++ slash :: (blPrintDecimal day ++ [comma])) ++
          (blPrintDecimal t.hour ++ colon :: (blPrintDecimal t.minute ++ colon ::
            (blPrintDecimal t.second ++ dot :: blPrintDecimal64 ns))))) := by
  obtain ⟨hsecs, hns⟩ := blDivmod64_eq time (d := 10000000) (by decide)
  obtain ⟨hdays, hsod⟩ := blDivmod64_eq (blDivmod64 time 10000000).1 (d := 86400) (by decide)
  have hten : (10000000 : BitVec 64).toNat = 10000000 := rfl
  have hday : (86400 : BitVec 64).toNat = 86400 := rfl
  rw [hten] at hsecs hns
  rw [hsecs, hday] at hdays hsod
  have hclock := t.hour_lt
  have hminute := t.minute_lt
  have hsecond := t.second_lt
  have hremainder := t.remainder_lt
  unfold Instant.time at h
  have hnumber : (blDivmod64 (blDivmod64 time 10000000).1 86400).1.toNat = t.date.number 1601 := by
    rw [hdays, ← h]
    omega
  have hhhmmss : (blDivmod64 (blDivmod64 time 10000000).1 86400).2.toNat % 2 ^ 32 =
      (t.hour * 60 + t.minute) * 60 + t.second := by
    rw [hsod, ← h]
    omega
  have hlt := t.date.dayOfYear_lt
  obtain ⟨month, hmonth, hfrom, hto⟩ := exists_month (isLeap t.date.year)
    (lengthOfYear (isLeap t.date.year) - t.date.dayOfYear - 1) (by omega)
  have hplace : lengthOfYear (isLeap t.date.year) - t.date.dayOfYear -
      daysBeforeMonth (isLeap t.date.year) month ∈
        Finset.Icc 1 (lengthOfMonth (isLeap t.date.year) month) := Finset.mem_Icc.mpr (by omega)
  refine ⟨month, hmonth, _, hplace, by omega, (blDivmod64 time 10000000).2, ?_, ?_⟩
  · rw [hns, ← h]
    omega
  · have hshort : lengthOfYear (isLeap t.date.year) ≤ 366 := by
      cases isLeap t.date.year <;> decide
    have hrest : (daysBeforeYear 1601 (t.date.year + 1) - t.date.number 1601) % 2 ^ 32 =
        daysBeforeMonth (isLeap t.date.year) month + (lengthOfYear (isLeap t.date.year) -
          t.date.dayOfYear - daysBeforeMonth (isLeap t.date.year) month) := by
      rw [daysBeforeYear_succ t.year_ge, Date.number]
      omega
    simp only [blNtfsDumpFileTime, hnumber, hhhmmss, yearFrom_date t.date t.year_ge, hrest,
      monthLengths_eq, monthFrom_eq hmonth hplace, Option.map_some]
    have h1 : ((t.hour * 60 + t.minute) * 60 + t.second) / 3600 = t.hour := by omega
    have h2 : ((t.hour * 60 + t.minute) * 60 + t.second) % 3600 / 60 = t.minute := by omega
    have h3 : ((t.hour * 60 + t.minute) * 60 + t.second) % 60 = t.second := by omega
    rw [h1, h2, h3]

theorem slash_not_digit : ¬IsDigit slash := by decide
theorem comma_not_digit : ¬IsDigit comma := by decide
theorem colon_not_digit : ¬IsDigit colon := by decide
theorem dot_not_digit : ¬IsDigit dot := by decide

theorem time_text_iff (t : Instant) {ns : BitVec 64} (hns : ns.toNat = t.remainder) :
    blPrintDecimal t.hour ++ colon :: (blPrintDecimal t.minute ++ colon ::
        (blPrintDecimal t.second ++ dot :: blPrintDecimal64 ns)) =
      decimal t.hour ++ colon :: (decimal t.minute ++ colon ::
        (decimal t.second ++ dot :: decimal t.remainder)) ↔
      t.hour % 10 ≠ 0 ∧ t.minute % 10 ≠ 0 ∧ t.second % 10 ≠ 0 ∧ t.remainder % 10 ≠ 0 := by
  have hhour := t.hour_lt
  have hminute := t.minute_lt
  have hsecond := t.second_lt
  have hremainder := t.remainder_lt
  rw [printed_split colon_not_digit, printed_split colon_not_digit, printed_split dot_not_digit,
    blPrintDecimal_right_iff (by omega), blPrintDecimal_right_iff (by omega),
    blPrintDecimal_right_iff (by omega), ← hns, blPrintDecimal64_right_iff (by omega)]

theorem number_text_iff {a b : Nat} (hb : 1 ≤ b) (ha : a < 100) :
    blPrintDecimal a = decimal b ↔ b % 10 ≠ 0 ∧ (a = b ∨ a = 10 * b) := by
  rw [blPrintDecimal_eq_decimal_iff (by omega)]
  refine and_congr_right fun _ => ⟨fun ⟨k, hk⟩ => eq_or_ten_mul hb ha hk, ?_⟩
  rintro (rfl | rfl)
  · exact ⟨0, by simp⟩
  · exact ⟨1, by ring⟩

/-- The instant is printed exactly when what is printed is mirrored into it. -/
theorem dumped_iff (t : Instant) (h : t.time = time.toNat) :
    blNtfsDumpFileTime time = some t.text ↔ Mirrored t := by
  obtain ⟨month, hmonth, day, hday, hplace, ns, hns, hcode⟩ := blNtfsDumpFileTime_eq t h
  have hmonths := Finset.mem_Icc.mp t.date.month_mem
  have hdays := Finset.mem_Icc.mp t.date.day_mem
  rw [hcode, Option.some.injEq, Instant.text, printed_split slash_not_digit,
    blPrintDecimal_right_iff (year_lt t h)]
  unfold Date.dayOfYear at hplace
  split_ifs with hlast
  · -- Without the month, a colon comes where a slash belongs.
    refine iff_of_false (fun htext => ?_) fun hmirrored => ?_
    · replace htext := htext.2
      rw [List.nil_append, digits_split (fun c hc => isDigit_of_mem_printed hc)
        (fun c hc => isDigit_of_mem_decimal hc) colon_not_digit slash_not_digit] at htext
      exact absurd htext.2.1 (by decide)
    · rw [hmirrored.date.1, hlast] at hplace
      rw [Finset.mem_Icc] at hday
      revert hplace
      cases isLeap t.date.year <;>
        simp [daysBeforeMonth, lengthsOfMonths, lengthOfYear] <;> omega
  · have hshort := lengthOfMonth_le (isLeap t.date.year) month (Finset.mem_Icc.mp hmonth)
    have hbefore : month ∈ Finset.Icc 1 11 := by
      rw [Finset.mem_Icc] at hmonth ⊢
      omega
    rw [Finset.mem_Icc] at hmonth
    have hmirror := mirror_iff t.date.month_mem t.date.day_mem hbefore hday hplace
    rw [Finset.mem_Icc] at hday
    rw [List.append_assoc, List.cons_append, List.append_assoc, List.singleton_append,
      printed_split slash_not_digit, printed_split comma_not_digit, time_text_iff t hns,
      number_text_iff hmonths.1 (by omega), number_text_iff hdays.1 (by omega)]
    constructor
    · rintro ⟨hyear, hmonthText, hdayText, hhour, hminute, hsecond, hremainder⟩
      exact ⟨hmirror.mp ⟨hmonthText, hdayText⟩, hyear, hhour, hminute, hsecond, hremainder⟩
    · rintro ⟨hdate, hyear, hhour, hminute, hsecond, hremainder⟩
      obtain ⟨hmonthText, hdayText⟩ := hmirror.mpr hdate
      exact ⟨hyear, hmonthText, hdayText, hhour, hminute, hsecond, hremainder⟩

theorem exists_instant (time : Nat) : ∃ t : Instant, t.time = time := by
  obtain ⟨date, hyear, hnumber⟩ := exists_date 1601 (time / 10000000 / 86400)
  refine ⟨⟨date, time / 10000000 % 86400 / 3600, time / 10000000 % 3600 / 60,
    time / 10000000 % 60, time % 10000000, hyear, by omega, by omega, by omega, by omega⟩, ?_⟩
  unfold Instant.time
  dsimp only
  rw [hnumber]
  omega

theorem instant_unique {t t' : Instant} (h : t.time = t'.time) : t = t' := by
  obtain ⟨date, hour, minute, second, remainder, hyear, hhour, hminute, hsecond, hremainder⟩ := t
  obtain ⟨date', hour', minute', second', remainder', hyear', hhour', hminute', hsecond',
    hremainder'⟩ := t'
  unfold Instant.time at h
  dsimp only at h
  obtain rfl : date = date' := date_unique hyear hyear' (by omega)
  obtain rfl : hour = hour' := by omega
  obtain rfl : minute = minute' := by omega
  obtain rfl : second = second' := by omega
  obtain rfl : remainder = remainder' := by omega
  rfl

/-- Every time is one instant. A text is printed for it, with no length outside the table read, and
it is the instant's exactly when what is printed is mirrored into it. -/
theorem file_time_printed_iff (time : BitVec 64) : ∃ t : Instant,
    (∀ t' : Instant, t'.time = time.toNat ↔ t' = t) ∧
      (∃ text, blNtfsDumpFileTime time = some text) ∧
      (blNtfsDumpFileTime time = some t.text ↔ Mirrored t) := by
  obtain ⟨t, ht⟩ := exists_instant time.toNat
  refine ⟨t, fun t' => ⟨fun ht' => instant_unique (ht'.trans ht.symm), fun h => h ▸ ht⟩, ?_,
    dumped_iff t ht⟩
  obtain ⟨_, _, _, _, _, _, _, hcode⟩ := blNtfsDumpFileTime_eq t ht
  exact ⟨_, hcode⟩

/-- The epoch itself is printed without its month, its day and its zeros. -/
theorem epoch_not_printed :
    ¬ ∀ time : BitVec 64, ∃ t : Instant, t.time = time.toNat ∧
      blNtfsDumpFileTime time = some t.text := by
  intro h
  obtain ⟨t, ht, htext⟩ := h 0
  have hremainder := ((dumped_iff t ht).mp htext).remainder
  have hzero : t.time = 0 := ht
  unfold Instant.time at hzero
  omega

end BootLoader.Ntfs
