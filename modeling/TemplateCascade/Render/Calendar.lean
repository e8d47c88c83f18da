namespace TemplateCascade
namespace Render

/-!
# Dates

Days are counted from the first of January 1970, and the Gregorian calendar is extended in both
directions; the year before year one is year zero.  A cycle of the calendar is 400 years of 146097
days.  Counting within a cycle starts in March, so that the leap day comes last in its year.
-/

/-- A day by its place in the calendar. -/
structure Day where
  year : Int
  month : Nat
  dayOfMonth : Nat
  /-- Counted from one. -/
  dayOfYear : Nat
  /-- Counted from zero for Monday. -/
  weekday : Nat
deriving DecidableEq, Repr

def isLeapYear (year : Int) : Bool :=
  year % 4 = 0 && (year % 100 ≠ 0 || year % 400 = 0)

/-- The days of a year in front of a month, which is counted from one. -/
def daysBeforeMonth (year : Int) (month : Nat) : Nat :=
  let common := [0, 31, 59, 90, 120, 151, 181, 212, 243, 273, 304, 334][month - 1]?.getD 0
  if isLeapYear year && 3 ≤ month then common + 1 else common

/-- The year within a cycle, counted in years that start in March, of a day of the cycle. -/
def yearOfCycle (dayOfCycle : Nat) : Nat :=
  (dayOfCycle - dayOfCycle / 1460 + dayOfCycle / 36524 - dayOfCycle / 146096) / 365

/-- The day that is so many days after the first of January 1970. -/
def Day.ofCount (days : Int) : Day :=
  let sinceMarch := days + 719468
  let cycle := sinceMarch / 146097
  let dayOfCycle := (sinceMarch % 146097).toNat
  let yearInCycle := yearOfCycle dayOfCycle
  let dayInYear := dayOfCycle - (365 * yearInCycle + yearInCycle / 4 - yearInCycle / 100)
  let monthFromMarch := (5 * dayInYear + 2) / 153
  let dayOfMonth := dayInYear - (153 * monthFromMarch + 2) / 5 + 1
  let month := if monthFromMarch < 10 then monthFromMarch + 3 else monthFromMarch - 9
  let year := cycle * 400 + yearInCycle + (if month ≤ 2 then 1 else 0)
  { year := year
    month := month
    dayOfMonth := dayOfMonth
    dayOfYear := daysBeforeMonth year month + dayOfMonth
    weekday := ((days + 3) % 7).toNat }

namespace Day

/-- The week of the year when weeks start on the given day of the week; days before the first such
day are in week zero. -/
def weekFrom (firstWeekday : Nat) (day : Day) : Nat :=
  (day.dayOfYear + 6 - (day.weekday + 7 - firstWeekday) % 7) / 7

/-- The weekday of the first of January of the year a day is in. -/
def firstWeekday (day : Day) : Nat :=
  (day.weekday + 7 * 53 - (day.dayOfYear - 1)) % 7

/-- The number of weeks in a year, given the weekday of its first day: a week belongs to the year
that has its Thursday. -/
def weeksInYear (year : Int) (first : Nat) : Nat :=
  if first = 3 || (isLeapYear year && first = 2) then 53 else 52

/-- The year and the week that a day's week belongs to. -/
def isoWeek (day : Day) : Int × Nat :=
  let week := (day.dayOfYear + 9 - day.weekday) / 7
  let first := day.firstWeekday
  if week = 0 then
    let previous := day.year - 1
    let days := if isLeapYear previous then 366 else 365
    (previous, weeksInYear previous ((first + 7 * 53 - days) % 7))
  else if weeksInYear day.year first < week then (day.year + 1, 1)
  else (day.year, week)

end Day

/-- A second of a day. -/
structure Moment where
  timestamp : Int
  day : Day
  hour : Nat
  minute : Nat
  second : Nat
deriving DecidableEq, Repr

/-- The years that moments may be in. -/
def firstYear : Int := -262143
def lastYear : Int := 262142

/-- The moment so many seconds after the start of 1970, unless its year is out of range. -/
def Moment.ofTimestamp? (timestamp : Int) : Option Moment :=
  let day := Day.ofCount (timestamp / 86400)
  let seconds := (timestamp % 86400).toNat
  if firstYear ≤ day.year && day.year ≤ lastYear then
    some ⟨timestamp, day, seconds / 3600, seconds / 60 % 60, seconds % 60⟩
  else none

/-- The hour on a dial of twelve. -/
def Moment.dialHour (moment : Moment) : Nat :=
  if moment.hour % 12 = 0 then 12 else moment.hour % 12

end Render
end TemplateCascade
