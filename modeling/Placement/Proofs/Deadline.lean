/-
How long a reservation can be told to wait before its deadline leaves the calendar.

* `Date.year_mono`: later days lie in no earlier year. So the moments of the calendar since 1970 are those
  up to its last second (`Timestamp.inRange_iff`).
* `Timestamp.addMillis?_isSome_iff`: a deadline some whole seconds from now exists up to there.
* `Settings.Admits.timed`: with settings that are admitted with a timeout of at most
  `Timestamp.secondsAfter9999`, the deadline of a new reservation exists at all times from 1970 to 9999.
* `Settings.deadline_of_admitted`: what settings are admitted with a timeout of at most
  `Timestamp.secondsAfter9999` never lead out of the calendar before the year 10000, and all others do.
  Settings are checked for whether the milliseconds of the timeout fit 63 bits, which is far more
  (`Sample.endless_timeout`).
-/
import Placement.Proofs.Dated
import Placement.Proofs.Masking
import Placement.Settings

namespace Placement

namespace Timestamp

/-! ## Years -/

theorem yearStart_mono {a b : Nat} (h : a ≤ b) : yearStart a ≤ yearStart b := by
  induction h with
  | refl => exact Nat.le_refl _
  | @step b _ ih => exact Nat.le_trans ih (by rw [yearStart_succ]; exact Nat.le_add_right _ _)

namespace Date

/-- Within a year that begins in March, January and February come last. -/
theorem year_ofYear_mono (year : Int) {a b : Nat} (h : a ≤ b) (inYear : b < 366) :
    (ofYear year a).year ≤ (ofYear year b).year := by
  have later : monthOfYear a ≤ monthOfYear b ∧ monthOfYear b < 12 := by
    simp only [monthOfYear]
    omega
  have last : ∀ place, place < 12 → (afterMarch place ≤ 2 ↔ 10 ≤ place) := by decide
  simp only [ofYear, ofPlace, last _ later.2, last _ (Nat.lt_of_le_of_lt later.1 later.2)]
  split <;> split <;> omega

theorem year_ofYear_lt {year year' : Int} (h : year < year') (a b : Nat) :
    (ofYear year a).year ≤ (ofYear year' b).year := by
  simp only [ofYear, ofPlace]
  split <;> split <;> omega

/-- Later days lie in no earlier year. -/
theorem year_mono {a b : Int} (h : a ≤ b) : (ofDays a).year ≤ (ofDays b).year := by
  obtain ⟨era, year, day, short, inYear, ha, dateA⟩ := ofDays_eq a
  obtain ⟨era', year', day', short', inYear', hb, dateB⟩ := ofDays_eq b
  rw [← Nat.add_lt_add_iff_left, ← yearStart_succ] at inYear inYear'
  have inEra' : yearStart (year' + 1) ≤ 146097 := yearStart_mono (show year' + 1 ≤ 400 by omega)
  have eras : era ≤ era' := by omega
  rw [dateA, dateB]
  rcases Int.lt_or_eq_of_le eras with before | rfl
  · exact year_ofYear_lt (by omega) day day'
  · rcases Nat.lt_trichotomy year year' with before | rfl | after
    · exact year_ofYear_lt (by omega) day day'
    · rw [yearStart_succ] at inYear'
      exact year_ofYear_mono _ (by omega) (by split at inYear' <;> omega)
    · -- The first year would have begun after the later day.
      have := yearStart_mono (show year' + 1 ≤ year from after)
      omega

end Date

/-- The last second of the calendar. -/
def lastSecond : Int := Date.toDays ⟨lastYear, 12, 31⟩ * 86400 + 86399

/-- A moment since 1970 is in range up to the last second of the calendar. -/
theorem inRange_iff {t : Timestamp} (since : 0 ≤ t.seconds) :
    t.inRange = true ↔ t.seconds ≤ lastSecond := by
  have last : (Date.ofDays (Date.toDays ⟨lastYear, 12, 31⟩)).year = lastYear := by decide
  have after : (Date.ofDays (Date.toDays ⟨lastYear, 12, 31⟩ + 1)).year = lastYear + 1 := by decide
  have first : (Date.ofDays 0).year = 1970 := by decide
  have begun := Date.year_mono (show 0 ≤ t.seconds / 86400 by omega)
  simp only [inRange, Bool.and_eq_true, decide_eq_true_eq]
  rw [date, lastSecond]
  constructor
  · rintro ⟨-, kept⟩
    by_contra late
    have := Date.year_mono
      (show Date.toDays ⟨lastYear, 12, 31⟩ + 1 ≤ t.seconds / 86400 by omega)
    omega
  · intro early
    have := Date.year_mono (show t.seconds / 86400 ≤ Date.toDays ⟨lastYear, 12, 31⟩ by omega)
    exact ⟨by simp only [firstYear]; omega, by omega⟩

/-! ## Whole seconds later -/

/-- Whole seconds later, in a leap second or not. -/
theorem seconds_shift {t : Timestamp} (short : t.nanos < 2000000000) (n : Nat) :
    (t.shift ((n * 1000 : Nat) * 1000000)).seconds = t.seconds + n := by
  have nanos : ((n * 1000 : Nat) * 1000000 : Int) = n * 1000000000 := by
    push_cast
    omega
  have whole : (n * 1000000000 : Int).tdiv 1000000000 = n := Int.mul_tdiv_cancel _ (by decide)
  have part : (n * 1000000000 : Int).tmod 1000000000 = 0 := Int.mul_tmod_left _ _
  rw [nanos]
  unfold shift
  simp only [whole, part]
  split
  · next stays =>
    simp only [Bool.and_eq_true, decide_eq_true_eq, beq_iff_eq] at stays
    simp only
    omega
  · have forward : ¬ (n : Int) < 0 := by omega
    simp only [forward, decide_false, Bool.and_false, Bool.false_eq_true, if_false]
    split <;> omega

/-- A deadline exists if the seconds to it end before the calendar does. -/
theorem addMillis?_isSome_iff {t : Timestamp} (since : 0 ≤ t.seconds) (short : t.nanos < 2000000000)
    (n : Nat) : (t.addMillis? (n * 1000 : Nat)).isSome = true ↔ t.seconds + n ≤ lastSecond := by
  have later := seconds_shift short n
  rw [← later, ← inRange_iff (by rw [later]; omega), addMillis?]
  exact Option.isSome_ite

/-! ## From 1970 to 9999 -/

/-- The last second of the year 9999. -/
def secondsTo9999 : Int := Date.toDays ⟨9999, 12, 31⟩ * 86400 + 86399

/-- How many seconds the calendar goes on after the year 9999. -/
def secondsAfter9999 : Nat := (lastSecond - secondsTo9999).toNat

example : secondsAfter9999 = 7956864576000 := by decide

theorem natCast_secondsAfter9999 : (secondsAfter9999 : Int) = lastSecond - secondsTo9999 := by
  decide

theorem seconds_of_years {t : Timestamp} (first : 1970 ≤ t.date.year) (last : t.date.year ≤ 9999) :
    0 ≤ t.seconds ∧ t.seconds ≤ secondsTo9999 := by
  have before : (Date.ofDays (-1)).year = 1969 := by decide
  have after : (Date.ofDays (Date.toDays ⟨9999, 12, 31⟩ + 1)).year = 10000 := by decide
  rw [date] at first last
  constructor
  · by_contra early
    have := Date.year_mono (show t.seconds / 86400 ≤ -1 by omega)
    omega
  · by_contra late
    rw [secondsTo9999] at late
    have := Date.year_mono (show Date.toDays ⟨9999, 12, 31⟩ + 1 ≤ t.seconds / 86400 by omega)
    omega

end Timestamp

/-! ## Decisions with a late deadline -/

namespace Sample

/-- Of this run spec one instance is missing, whatever role is accepted by default. -/
def founder : RunSpec Rat :=
  { Sample.cache with acceptedRoles := Roles.ofList [anyRole], ports := [] }

/-- Where the offer is good for a reservation, the deadline is what is left to find. -/
theorem fault_founder {policy : LaunchPolicy} {now : Timestamp} (ids : IdSupply)
    (late : now.addMillis? policy.reservationTimeoutMs = none) :
    (Decision.evaluate policy .restricted founder Sample.cacheOffer [] 1 now ids).1 =
      .error .deadlineOutOfRange := by
  have wants : Decision.Wants founder [] 1 :=
    ⟨rfl, rfl, by simp, by decide +kernel, le_refl 1⟩
  have found : Matching.match? .restricted Sample.cacheOffer founder []
      ⟨founder.roles policy.defaultRole, .unreserved⟩ (.create founder.volumes) =
        .ok ⟨[.scalar .cpus 1, .scalar .disk 50], [], [(⟨"files", 50, .root⟩, .scalar .disk 50)]⟩ := by
    show Matching.match? .restricted Sample.cacheOffer founder []
      ⟨founder.acceptedRoles, .unreserved⟩ (.create founder.volumes) = _
    decide +kernel
  have named : ∀ uuid, ∃ id, VolumeId.forPath founder.id "files" uuid = .ok id :=
    fun uuid => ⟨⟨founder.id, "files", uuid, by decide⟩, rfl⟩
  have nothing : Decision.first? Sample.cacheOffer [] founder.id = none := rfl
  obtain ⟨id, named⟩ := named ids.nextUlid.2.nextUuid.1
  rw [wants.evaluate_eq, nothing]
  simp only [Decision.foundReservation, found, Decision.createVolumes, named, late, IdSupply.nextId]
  rfl

/-- The middle of the last second of the year 9999. -/
def lastNow : Timestamp := ⟨Timestamp.secondsTo9999, 500000000⟩

end Sample

/-! ## Settings -/

namespace Settings

/-- Settings are read from a lookup and admitted, and this is how launches are made by them. -/
def Admits (lookup : String → Option String) (policy : LaunchPolicy) : Prop :=
  ∃ s, ofLookup lookup = .ok s ∧ s.launchPolicy? = some policy

variable {lookup : String → Option String} {policy : LaunchPolicy}

/-- A timeout is one of whole seconds. -/
theorem Admits.timeout (admitted : Admits lookup policy) :
    ∃ n : Nat, policy.reservationTimeoutMs = (n * 1000 : Nat) := by
  obtain ⟨s, -, made⟩ := admitted
  unfold launchPolicy? at made
  split at made
  · exact ⟨s.reservationTimeoutSecs.val, by rw [← Option.some.inj made]⟩
  · cases made

/-- From 1970 to 9999 the deadline of a new reservation lies in the calendar, if the timeout is no longer than
the calendar goes on after that. -/
theorem Admits.timed (admitted : Admits lookup policy)
    (soon : policy.reservationTimeoutMs ≤ Timestamp.secondsAfter9999 * 1000) {now : Timestamp}
    (calendar : now.OnCalendar) (first : 1970 ≤ now.date.year) (last : now.date.year ≤ 9999) :
    (now.addMillis? policy.reservationTimeoutMs).isSome = true := by
  obtain ⟨n, timeout⟩ := admitted.timeout
  obtain ⟨since, until_⟩ := Timestamp.seconds_of_years first last
  have left := Timestamp.natCast_secondsAfter9999
  rw [timeout] at soon ⊢
  rw [Timestamp.addMillis?_isSome_iff since calendar.short]
  omega

/-- With a timeout that settings are admitted with, a decision is reached at all times from 1970 to 9999 if
the calendar goes on for as long after the year 9999; and if it does not, there are a run spec and an offer
for which none is reached at the end of that year. -/
theorem deadline_of_admitted (admitted : Admits lookup policy) :
    (policy.reservationTimeoutMs ≤ Timestamp.secondsAfter9999 * 1000 →
      ∀ {α : Type} [Amount α] (gpus : GpuPolicy) (runSpec : RunSpec α) (o : Offer α)
        (known : List Instance) (additional : Nat) (now : Timestamp) (ids : IdSupply),
        now.OnCalendar → 1970 ≤ now.date.year → now.date.year ≤ 9999 →
          (Decision.evaluate policy gpus runSpec o known additional now ids).1 ≠
            .error .deadlineOutOfRange) ∧
    (Timestamp.secondsAfter9999 * 1000 < policy.reservationTimeoutMs →
      ∃ (runSpec : RunSpec Rat) (o : Offer Rat) (now : Timestamp) (ids : IdSupply),
        now.OnCalendar ∧ now.date.year = 9999 ∧
          (Decision.evaluate policy .restricted runSpec o [] 1 now ids).1 =
            .error .deadlineOutOfRange) := by
  constructor
  · intro soon α _ gpus runSpec o known additional now ids calendar first last
    exact Decision.evaluate_ne_deadline (admitted.timed soon calendar first last)
  · intro late
    obtain ⟨n, timeout⟩ := admitted.timeout
    have left := Timestamp.natCast_secondsAfter9999
    rw [timeout] at late
    have calendar : Sample.lastNow.OnCalendar := by decide
    refine ⟨Sample.founder, Sample.cacheOffer, Sample.lastNow, .numbered ⟨0, 0⟩, calendar,
      by decide, Sample.fault_founder _ ?_⟩
    rw [timeout, ← Option.not_isSome_iff_eq_none,
      Timestamp.addMillis?_isSome_iff (by decide) calendar.short]
    have here : Sample.lastNow.seconds = Timestamp.secondsTo9999 := rfl
    omega

end Settings

/-! ## The usual timeout and the longest one -/

namespace Sample

/-- One variable is set. -/
def onlySet (name value : String) : String → Option String :=
  fun asked => if asked = name then some value else none

theorem admits_usual : Settings.Admits (fun _ => none) .usual := ⟨_, rfl, rfl⟩

/-- The longest timeout that is admitted. -/
def endless : LaunchPolicy := { LaunchPolicy.usual with reservationTimeoutMs := 9223372036854775000 }

theorem admits_endless :
    Settings.Admits (onlySet "KEEL_RESERVATION_TIMEOUT_SECS" "9223372036854775") endless := by
  have admitted : (Settings.ofLookup (onlySet "KEEL_RESERVATION_TIMEOUT_SECS" "9223372036854775")).map
      Settings.launchPolicy? = .ok (some endless) := by
    decide +kernel
  cases read : Settings.ofLookup (onlySet "KEEL_RESERVATION_TIMEOUT_SECS" "9223372036854775") with
  | error e =>
    rw [read] at admitted
    cases admitted
  | ok s =>
    rw [read] at admitted
    exact ⟨s, read, Except.ok.inj admitted⟩

/-- A configuration that is admitted, and a decision that is not reached at the start of 1970. -/
theorem endless_timeout :
    Settings.Admits (onlySet "KEEL_RESERVATION_TIMEOUT_SECS" "9223372036854775") endless ∧
      (Decision.evaluate endless .restricted founder Sample.cacheOffer [] 1 ⟨0, 0⟩
        (.numbered ⟨0, 0⟩)).1 = .error .deadlineOutOfRange :=
  ⟨admits_endless, fault_founder _ (by decide)⟩

end Sample

/-- The usual timeout leads to no fault, not even in the last second of the year 9999, and the longest one
does in that year. -/
theorem deadline_of_admitted_sample :
    (Settings.Admits (fun _ => none) .usual ∧
      LaunchPolicy.usual.reservationTimeoutMs ≤ Timestamp.secondsAfter9999 * 1000 ∧
      Sample.lastNow.OnCalendar ∧ Sample.lastNow.date.year = 9999 ∧
      (Decision.evaluate .usual .restricted Sample.founder Sample.cacheOffer [] 1 Sample.lastNow
        (.numbered ⟨0, 0⟩)).1 ≠ .error .deadlineOutOfRange) ∧
    Settings.Admits (Sample.onlySet "KEEL_RESERVATION_TIMEOUT_SECS" "9223372036854775") Sample.endless ∧
      Timestamp.secondsAfter9999 * 1000 < Sample.endless.reservationTimeoutMs ∧
      ∃ (runSpec : RunSpec Rat) (o : Offer Rat) (now : Timestamp) (ids : IdSupply),
        now.OnCalendar ∧ now.date.year = 9999 ∧
          (Decision.evaluate Sample.endless .restricted runSpec o [] 1 now ids).1 =
            .error .deadlineOutOfRange := by
  have calendar : Sample.lastNow.OnCalendar := by decide
  refine ⟨⟨Sample.admits_usual, by decide, calendar, by decide, ?_⟩, Sample.admits_endless, by decide, ?_⟩
  · exact (Settings.deadline_of_admitted Sample.admits_usual).1 (by decide) .restricted Sample.founder
      Sample.cacheOffer [] 1 Sample.lastNow (.numbered ⟨0, 0⟩) calendar (by decide) (by decide)
  · exact (Settings.deadline_of_admitted Sample.admits_endless).2 (by decide)

end Placement
