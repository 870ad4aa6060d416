import TransactionLookup.Calendar.Instant

/-!
# Days and dates

The date of a day exists, and its number of days is the day. A year counted from March has 365 days
or 366, the last one only if the leap day falls in it, and every day of it lies in one month. So the
years of the days within the range of the instants are the years of the range.
-/

namespace TransactionLookup.Calendar

/-- The year from March in which a day lies that is counted from the first of March of year 0, and
the days of that year before it. -/
def marchYear (count : Int) : Int × Nat :=
  let era := count / 146097
  let ofEra := (count % 146097).toNat
  let century := min (ofEra / 36524) 3
  let ofCentury := ofEra - century * 36524
  let cycle := ofCentury / 1461
  let ofCycle := ofCentury % 1461
  let yearOfCycle := min (ofCycle / 365) 3
  (400 * era + (100 * century + 4 * cycle + yearOfCycle : Nat), ofCycle - yearOfCycle * 365)

/-- The months after March in which a day lies, by the days of its year from March before it. -/
def monthsAfterMarch (ofYear : Nat) : Nat := (5 * ofYear + 2) / 153

/-- The date of a day of a year from March. -/
def Date.ofMarch (year : Int) (ofYear : Nat) : Date :=
  let fromMarch := monthsAfterMarch ofYear
  let month := if fromMarch < 10 then fromMarch + 3 else fromMarch - 9
  ⟨if month ≤ 2 then year + 1 else year, month, ofYear - daysBeforeMonth fromMarch + 1⟩

theorem Date.ofDays_eq_ofMarch (days : Int) :
    Date.ofDays days = Date.ofMarch (marchYear (days + epoch)).1 (marchYear (days + epoch)).2 :=
  rfl

/-! ## The year of a day -/

/-- Whether a year from March has a day with the given number of days before it. -/
structure InYear (year : Int) (ofYear : Nat) : Prop where
  bounded : ofYear ≤ 365
  leap : ofYear = 365 → isLeap (year + 1) = true

theorem daysBeforeYear_parts {era : Int} {century cycle year : Nat} (centuries : century ≤ 3)
    (cycles : cycle ≤ 24) (years : year ≤ 3) :
    daysBeforeYear (400 * era + (100 * century + 4 * cycle + year : Nat)) =
      146097 * era + (36524 * century + 1461 * cycle + 365 * year : Nat) := by
  unfold daysBeforeYear
  omega

theorem marchYear_count (count : Int) :
    daysBeforeYear (marchYear count).1 + (marchYear count).2 = count := by
  simp only [marchYear]
  rw [daysBeforeYear_parts (by omega) (by omega) (by omega)]
  omega

theorem marchYear_inYear (count : Int) : InYear (marchYear count).1 (marchYear count).2 where
  bounded := by
    simp only [marchYear]
    omega
  leap last := by
    -- the 366th day is the last one of its four years, and of its century only in the last of four
    simp only [marchYear] at last ⊢
    simp only [isLeap, Bool.and_eq_true, Bool.or_eq_true, decide_eq_true_eq]
    omega

theorem daysBeforeYear_le {year later : Int} (order : year ≤ later) :
    daysBeforeYear year ≤ daysBeforeYear later := by
  unfold daysBeforeYear
  omega

theorem daysBeforeYear_succ (year : Int) : daysBeforeYear year + 365 ≤ daysBeforeYear (year + 1) := by
  unfold daysBeforeYear
  omega

/-! ## The month of a day -/

theorem monthsAfterMarch_le {ofYear : Nat} (bounded : ofYear ≤ 365) :
    monthsAfterMarch ofYear ≤ 11 := by
  unfold monthsAfterMarch
  omega

theorem daysBeforeMonth_le (ofYear : Nat) :
    daysBeforeMonth (monthsAfterMarch ofYear) ≤ ofYear := by
  unfold daysBeforeMonth monthsAfterMarch
  omega

theorem lt_daysBeforeMonth_succ (ofYear : Nat) :
    ofYear < daysBeforeMonth (monthsAfterMarch ofYear + 1) := by
  unfold daysBeforeMonth monthsAfterMarch
  omega

/-- January begins after 306 days of a year from March. -/
theorem monthsAfterMarch_lt_ten_iff (ofYear : Nat) : monthsAfterMarch ofYear < 10 ↔ ofYear < 306 := by
  unfold monthsAfterMarch
  omega

theorem monthLength_le (year : Int) (month : Nat) : monthLength year month ≤ 31 := by
  unfold monthLength
  split
  · split <;> decide
  all_goals decide

namespace Date

variable {year : Int} {ofYear : Nat}

theorem ofMarch_of_lt (early : ofYear < 306) :
    ofMarch year ofYear = ⟨year, monthsAfterMarch ofYear + 3,
      ofYear - daysBeforeMonth (monthsAfterMarch ofYear) + 1⟩ := by
  simp only [ofMarch, (monthsAfterMarch_lt_ten_iff ofYear).mpr early, if_true]
  rw [if_neg (by omega)]

theorem ofMarch_of_le (late : 306 ≤ ofYear) (bounded : ofYear ≤ 365) :
    ofMarch year ofYear = ⟨year + 1, monthsAfterMarch ofYear - 9,
      ofYear - daysBeforeMonth (monthsAfterMarch ofYear) + 1⟩ := by
  have small := monthsAfterMarch_le bounded
  have turned : ¬ monthsAfterMarch ofYear < 10 := by
    rw [monthsAfterMarch_lt_ten_iff]
    omega
  simp only [ofMarch, turned, if_false]
  rw [if_pos (by omega)]

theorem toDays_ofMarch (bounded : ofYear ≤ 365) :
    (ofMarch year ofYear).toDays = daysBeforeYear year + ofYear - epoch := by
  have begun := daysBeforeMonth_le ofYear
  rcases Nat.lt_or_ge ofYear 306 with early | late
  · rw [ofMarch_of_lt early]
    simp [toDays]
    omega
  · have small := monthsAfterMarch_le bounded
    have turned := mt (monthsAfterMarch_lt_ten_iff ofYear).mp (Nat.not_lt.mpr late)
    rw [ofMarch_of_le late bounded]
    simp only [toDays]
    rw [if_pos (by omega), if_pos (by omega), Nat.sub_add_cancel (by omega), Int.add_sub_cancel]
    omega

/-- A month after March, other than February, has all days up to the next one. -/
theorem daysBeforeMonth_succ_le (year : Int) : ∀ months < 11,
    daysBeforeMonth (months + 1) ≤ daysBeforeMonth months +
      monthLength year (if months < 10 then months + 3 else months - 9)
  | 0, _ | 1, _ | 2, _ | 3, _ | 4, _ | 5, _ | 6, _ | 7, _ | 8, _ | 9, _ | 10, _ => by
    simp [daysBeforeMonth, monthLength]

theorem exists_ofMarch (day : InYear year ofYear) : (ofMarch year ofYear).Exists := by
  have begun := daysBeforeMonth_le ofYear
  have small := monthsAfterMarch_le day.bounded
  rcases Nat.lt_or_ge ofYear 306 with early | late
  · have months := (monthsAfterMarch_lt_ten_iff ofYear).mpr early
    have length := daysBeforeMonth_succ_le year (monthsAfterMarch ofYear) (by omega)
    have inside := lt_daysBeforeMonth_succ ofYear
    rw [if_pos months] at length
    rw [ofMarch_of_lt early]
    refine ⟨?_, ?_, ?_, ?_⟩ <;> dsimp only <;> omega
  · have turned := mt (monthsAfterMarch_lt_ten_iff ofYear).mp (Nat.not_lt.mpr late)
    rw [ofMarch_of_le late day.bounded]
    refine ⟨by dsimp only; omega, by dsimp only; omega, by dsimp only; omega, ?_⟩
    dsimp only
    -- February is the last month of the year, with whatever days are left
    by_cases february : monthsAfterMarch ofYear = 11
    · have leap := day.leap
      have bounded := day.bounded
      have before : daysBeforeMonth 11 = 337 := rfl
      rw [february, before]
      simp only [Nat.reduceSub, monthLength]
      split
      · omega
      next common =>
        have : ofYear ≠ 365 := fun last => common (leap last)
        omega
    · have length := daysBeforeMonth_succ_le (year + 1) (monthsAfterMarch ofYear) (by omega)
      have inside := lt_daysBeforeMonth_succ ofYear
      rw [if_neg turned] at length
      omega

theorem year_ofMarch (bounded : ofYear ≤ 365) :
    (ofMarch year ofYear).year = if ofYear < 306 then year else year + 1 := by
  split
  next early => rw [ofMarch_of_lt early]
  next late => rw [ofMarch_of_le (Nat.not_lt.mp late) bounded]

/-! ## Dates of days -/

theorem toDays_ofDays (days : Int) : (ofDays days).toDays = days := by
  rw [ofDays_eq_ofMarch, toDays_ofMarch (marchYear_inYear _).bounded, marchYear_count]
  omega

theorem exists_ofDays (days : Int) : (ofDays days).Exists := by
  rw [ofDays_eq_ofMarch]
  exact exists_ofMarch (marchYear_inYear _)

/-- A day lies in a year or in a later one when the first of January of the year is not after it. -/
theorem le_year_ofDays_iff (year days : Int) :
    year ≤ (ofDays days).year ↔ daysBeforeYear (year - 1) + 306 ≤ days + epoch := by
  have bounded := (marchYear_inYear (days + epoch)).bounded
  have count := marchYear_count (days + epoch)
  rw [ofDays_eq_ofMarch, year_ofMarch bounded]
  generalize (marchYear (days + epoch)).1 = start at *
  generalize (marchYear (days + epoch)).2 = ofYear at *
  have next := daysBeforeYear_succ start
  constructor
  · intro reached
    split at reached
    -- before January the year of the date began with the January before its March
    · have := daysBeforeYear_le (show year - 1 ≤ start - 1 by omega)
      have := daysBeforeYear_succ (start - 1)
      rw [Int.sub_add_cancel] at this
      omega
    · have := daysBeforeYear_le (show year - 1 ≤ start by omega)
      omega
  · intro begun
    split
    -- if the date were of an earlier year, its year from March would be over before the first of January
    · by_cases later : year ≤ start
      · exact later
      · have := daysBeforeYear_le (show start ≤ year - 1 by omega)
        omega
    · by_cases later : year ≤ start + 1
      · exact later
      · have := daysBeforeYear_le (show start + 1 ≤ year - 1 by omega)
        omega

/-- The years of the instants are those of their range. -/
theorem year_within (t : Instant) :
    firstYear ≤ (ofDays (t.seconds / 86400)).year ∧ (ofDays (t.seconds / 86400)).year ≤ lastYear := by
  have started := t.started
  have ended := t.ended
  have start : daysBeforeYear (firstYear - 1) + 306 = firstSecond / 86400 + epoch := rfl
  have finish : daysBeforeYear (lastYear + 1 - 1) + 306 = lastSecond / 86400 + 1 + epoch := rfl
  have above := le_year_ofDays_iff firstYear (t.seconds / 86400)
  have below := le_year_ofDays_iff (lastYear + 1) (t.seconds / 86400)
  -- the range begins and ends with a year
  have first : firstSecond / 86400 ≤ t.seconds / 86400 := Int.ediv_le_ediv (by decide) started
  have last : t.seconds / 86400 ≤ lastSecond / 86400 := Int.ediv_le_ediv (by decide) ended
  omega

end Date

end TransactionLookup.Calendar
