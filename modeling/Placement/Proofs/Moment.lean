/-
The text of a moment gives the moment back.

A moment of the calendar (`Timestamp.OnCalendar`) is written in fields of digits with separators between them.
Each reader takes the field that was written and leaves what comes after it: `readNat_padded` for a number,
`year_yearChars`, `fraction_fractionChars` and so on for the fields. `Timestamp.parse?_render` puts them
together, and finds the day again by `Date.toDays_ofDays`.
-/
import Mathlib.Algebra.Group.Nat.Defs
import Placement.Proofs.Calendar
import Placement.Timestamp.Reader
import Placement.Timestamp.Writer

namespace Placement

/-! ## Digits -/

namespace Text

/-- The text does not go on with a digit. -/
def StopsDigits (cs : List Char) : Prop := ∀ c ∈ cs.head?, c.isDigit = false

theorem takeDigits_append {limit : Nat} {ds rest : List Char} (digits : ∀ d ∈ ds, d.isDigit = true)
    (fits : ds.length ≤ limit) (stops : ds.length = limit ∨ StopsDigits rest) :
    takeDigits limit (ds ++ rest) = (ds, rest) := by
  induction ds generalizing limit with
  | nil =>
    cases limit with
    | zero => rfl
    | succ limit =>
      cases rest with
      | nil => rfl
      | cons c cs =>
        have other : c.isDigit = false := (stops.resolve_left (by simp)) c rfl
        simp [takeDigits, other]
  | cons d ds ih =>
    obtain ⟨digit, digits⟩ := List.forall_mem_cons.1 digits
    cases limit with
    | zero => cases fits
    | succ limit =>
      have more := ih digits (Nat.le_of_succ_le_succ fits) (stops.imp_left Nat.succ.inj)
      simp [takeDigits, digit, more]

theorem digitsValue_eq {cs : List Char} (digits : ∀ c ∈ cs, c.isDigit = true) :
    digitsValue cs = Nat.ofDigitChars 10 cs 0 := by
  have step : ∀ n, cs.foldl (fun n c => n * 10 + (digitValue? c).getD 0) n =
      Nat.ofDigitChars 10 cs n := by
    induction cs with
    | nil => exact fun _ => rfl
    | cons c cs ih =>
      obtain ⟨digit, digits⟩ := List.forall_mem_cons.1 digits
      intro n
      rw [List.foldl_cons, ih digits, Nat.ofDigitChars_cons, digitValue?, if_pos digit,
        Nat.mul_comm]
      rfl
  exact step 0

variable {width n : Nat}

theorem isDigit_of_mem_padded {c : Char} (h : c ∈ padded width n) : c.isDigit = true := by
  rw [padded, List.mem_append] at h
  rcases h with zero | digit
  · rw [(List.mem_replicate.1 zero).2]
    rfl
  · exact Nat.isDigit_of_mem_toDigits (by decide) (by decide) digit

theorem length_padded (positive : 0 < width) (fits : n < 10 ^ width) :
    (padded width n).length = width := by
  have short : (Nat.toDigits 10 n).length ≤ width :=
    (Nat.length_toDigits_le_iff (by decide) positive).2 fits
  rw [padded, List.length_append, List.length_replicate, Nat.sub_add_cancel short]

/-- A number begins with a digit. -/
theorem exists_padded (width n : Nat) : ∃ d ds, padded width n = d :: ds ∧ d.isDigit = true := by
  have digits := fun c (hc : c ∈ padded width n) => isDigit_of_mem_padded hc
  cases h : padded width n with
  | nil => simp [padded, Nat.toDigits_ne_nil] at h
  | cons d ds => exact ⟨d, ds, rfl, digits d (h ▸ List.mem_cons_self)⟩

theorem digitsValue_padded : digitsValue (padded width n) = n := by
  have zeros : ∀ k, Nat.ofDigitChars 10 (List.replicate k '0') 0 = 0 := by
    intro k
    induction k with
    | zero => rfl
    | succ k ih => rw [List.replicate_succ, Nat.ofDigitChars_cons]; exact ih
  rw [digitsValue_eq fun c hc => isDigit_of_mem_padded hc, padded, Nat.ofDigitChars_append, zeros,
    Nat.ofDigitChars_toDigits (by decide) (by decide)]

/-- A number is read back from its digits. -/
theorem readNat_padded {limit : Nat} {rest : List Char} (fits : (padded width n).length ≤ limit)
    (stops : (padded width n).length = limit ∨ StopsDigits rest) :
    readNat limit (padded width n ++ rest) = some (n, rest) := by
  have taken := takeDigits_append (fun c hc => isDigit_of_mem_padded hc) fits stops
  have value : digitsValue (padded width n) = n := digitsValue_padded
  obtain ⟨d, ds, hds, -⟩ := exists_padded width n
  rw [readNat, taken]
  rw [hds] at value ⊢
  show some (digitsValue (d :: ds), rest) = _
  rw [value]

theorem isBlank_of_isDigit {c : Char} (h : c.isDigit = true) : isBlank c = false := by
  have range : 48 ≤ c.toNat ∧ c.toNat ≤ 57 := by
    simpa [Char.isDigit, UInt32.le_iff_toNat_le] using h
  simp only [isBlank, Bool.or_eq_false_iff, Bool.and_eq_false_iff, decide_eq_false_iff_not,
    beq_eq_false_iff_ne]
  omega

theorem isDigit_of_padded_append {c : Char} {cs rest : List Char}
    (h : padded width n ++ rest = c :: cs) : c.isDigit = true := by
  obtain ⟨d, ds, hds, digit⟩ := exists_padded width n
  rw [hds] at h
  obtain ⟨rfl, -⟩ := List.cons.inj h
  exact digit

/-- No blanks come before a number. -/
theorem skipBlanks_padded (rest : List Char) :
    skipBlanks (padded width n ++ rest) = padded width n ++ rest := by
  obtain ⟨d, ds, hds, digit⟩ := exists_padded width n
  simp [hds, skipBlanks, isBlank_of_isDigit digit]

end Text

namespace Timestamp

open Text

/-! ## Fields -/

namespace Reader

theorem separator_cons {c : Char} (solid : isBlank c = false) (rest : List Char) :
    separator c (c :: rest) = some rest := by
  simp [separator, skipBlanks, solid]

theorem twoDigits_padded {n : Nat} (fits : n < 100) (rest : List Char) :
    twoDigits (padded 2 n ++ rest) = some (n, rest) := by
  have length : (padded 2 n).length = 2 := length_padded (by decide) fits
  rw [twoDigits, skipBlanks_padded, readNat_padded (Nat.le_of_eq length) (.inl length)]

/-- A year is followed by a separator. -/
theorem year_yearChars (y : Int) {rest : List Char} (stops : StopsDigits rest) :
    year (yearChars y ++ rest) = some (y, rest) := by
  unfold yearChars
  split
  · next plain =>
    have length : (padded 4 y.toNat).length = 4 := length_padded (by decide) (by omega)
    have read : readNat 4 (padded 4 y.toNat ++ rest) = some (y.toNat, rest) :=
      readNat_padded (Nat.le_of_eq length) (.inl length)
    rw [year, skipBlanks_padded]
    split
    · next h => exact absurd (isDigit_of_padded_append h) (by decide)
    · next h => exact absurd (isDigit_of_padded_append h) (by decide)
    · rw [read]
      show some ((y.toNat : Int), rest) = _
      rw [Int.toNat_of_nonneg plain.1]
  · next signed =>
    have read : readNat (padded 4 y.natAbs ++ rest).length (padded 4 y.natAbs ++ rest) =
        some (y.natAbs, rest) := readNat_padded (by simp) (.inr stops)
    split
    · next negative =>
      show (readNat (padded 4 y.natAbs ++ rest).length (padded 4 y.natAbs ++ rest)).map _ = _
      rw [read]
      show some (-(y.natAbs : Int), rest) = _
      rw [Int.ofNat_natAbs_of_nonpos (Int.le_of_lt negative), Int.neg_neg]
    · next positive =>
      show (readNat (padded 4 y.natAbs ++ rest).length (padded 4 y.natAbs ++ rest)).map _ = _
      rw [read]
      show some ((y.natAbs : Int), rest) = _
      rw [Int.natAbs_of_nonneg (Int.not_lt.1 positive)]

/-- A date that is written is read, if it is one of the calendar. -/
theorem date_chars {d : Date} (valid : d.isValid = true) {rest : List Char} :
    date (yearChars d.year ++ '-' :: (padded 2 d.month ++ '-' :: (padded 2 d.day ++ rest))) =
      some (d, rest) := by
  have valid' := valid
  simp only [Date.isValid, Bool.and_eq_true, decide_eq_true_eq] at valid'
  have days : daysInMonth d.year d.month ≤ 31 := by
    unfold daysInMonth
    repeat' split
    all_goals decide
  have hyphen : ∀ cs, StopsDigits ('-' :: cs) := by
    rintro cs c ⟨⟩
    rfl
  have solid : isBlank '-' = false := by decide
  have month : ∀ cs, twoDigits (padded 2 d.month ++ cs) = some (d.month, cs) :=
    twoDigits_padded (by omega)
  have day : ∀ cs, twoDigits (padded 2 d.day ++ cs) = some (d.day, cs) :=
    twoDigits_padded (by omega)
  simp only [date, year_yearChars _ (hyphen _), separator_cons solid, month, day,
    Option.bind_eq_bind, Option.bind_some, valid, if_true]

/-- A fraction is followed by a zone. -/
theorem fraction_padded {width n : Nat} (positive : 0 < width) (short : width ≤ 9)
    (fits : n < 10 ^ width) {rest : List Char} (stops : StopsDigits rest) :
    fraction ('.' :: (padded width n ++ rest)) = some (n * 10 ^ (9 - width), rest) := by
  have length := length_padded positive fits
  have taken : takeDigits 9 (padded width n ++ rest) = (padded width n, rest) :=
    takeDigits_append (fun c hc => isDigit_of_mem_padded hc) (by omega) (.inr stops)
  have value : digitsValue (padded width n) = n := digitsValue_padded
  have kept : rest.dropWhile Char.isDigit = rest := by
    cases rest with
    | nil => rfl
    | cons c cs => simp [stops c rfl]
  obtain ⟨d, ds, hds, -⟩ := exists_padded width n
  rw [fraction, taken]
  rw [hds] at length value ⊢
  show some (digitsValue (d :: ds) * Nat.pow 10 (9 - (d :: ds).length), _) = _
  rw [value, length, kept]
  rfl

theorem fraction_fractionChars {nanos : Nat} (h : nanos < 1000000000) (zone : ZoneText) :
    fraction (fractionChars nanos ++ zone.chars) = some (nanos, zone.chars) := by
  have stops : StopsDigits zone.chars := by
    cases zone <;> rintro c ⟨⟩ <;> rfl
  unfold fractionChars
  split
  · next zero =>
    rw [zero]
    cases zone <;> rfl
  · split
    · next millis =>
      rw [List.cons_append, fraction_padded (by decide) (by decide) (by omega) stops]
      have same : nanos / 1000000 * 10 ^ 6 = nanos := by omega
      rw [show 9 - 3 = 6 from rfl, same]
    · split
      · next micros =>
        rw [List.cons_append, fraction_padded (by decide) (by decide) (by omega) stops]
        have same : nanos / 1000 * 10 ^ 3 = nanos := by omega
        rw [show 9 - 6 = 3 from rfl, same]
      · rw [List.cons_append, fraction_padded (by decide) (by decide) (by omega) stops]
        simp

theorem offset_zone (zone : ZoneText) : offset zone.chars = some (0, []) := by
  cases zone <;> decide

/-- The seconds of a day are written as hours, minutes and seconds; a leap second as second 60. -/
theorem timeOfDay_chars {second nanos : Nat} (inDay : second < 86400) (short : nanos < 2000000000)
    (leap : 1000000000 ≤ nanos → second % 60 = 59) (zone : ZoneText) :
    timeOfDay (padded 2 (second / 3600) ++ ':' :: (padded 2 (second / 60 % 60) ++
      ':' :: (padded 2 (if 1000000000 ≤ nanos then second % 60 + 1 else second % 60) ++
        (fractionChars (if 1000000000 ≤ nanos then nanos - 1000000000 else nanos) ++
          zone.chars)))) = some ((second, nanos), zone.chars) := by
  have written : (if 1000000000 ≤ nanos then second % 60 + 1 else second % 60) < 100 := by
    split <;> omega
  have part : (if 1000000000 ≤ nanos then nanos - 1000000000 else nanos) < 1000000000 := by
    split <;> omega
  have solid : isBlank ':' = false := by decide
  have hour : ∀ cs, twoDigits (padded 2 (second / 3600) ++ cs) = some (second / 3600, cs) :=
    twoDigits_padded (by omega)
  have minute : ∀ cs, twoDigits (padded 2 (second / 60 % 60) ++ cs) =
      some (second / 60 % 60, cs) := twoDigits_padded (by omega)
  simp only [timeOfDay, hour, minute, twoDigits_padded written, separator_cons solid,
    fraction_fractionChars part, Option.bind_eq_bind, Option.bind_some]
  have hours : second / 3600 ≤ 23 := by omega
  have minutes : second / 60 % 60 ≤ 59 := by omega
  have total : second / 3600 * 3600 + second / 60 % 60 * 60 + second % 60 = second := by omega
  by_cases isLeap : 1000000000 ≤ nanos
  · have last := leap isLeap
    rw [last] at total
    simp [isLeap, last, hours, minutes, total, Nat.sub_add_cancel isLeap]
  · have inMinute : second % 60 < 60 := Nat.mod_lt _ (by decide)
    simp [isLeap, hours, minutes, total, Nat.le_of_lt inMinute, Nat.ne_of_lt inMinute]

end Reader

/-! ## Moments -/

/-- The moments that the calendar has: in the years that are kept, and with leap seconds at the end of a
minute only. -/
structure OnCalendar (t : Timestamp) : Prop where
  inRange : t.inRange = true
  short : t.nanos < 2000000000
  leap : 1000000000 ≤ t.nanos → t.seconds % 60 = 59

variable {t : Timestamp}

/-- The text of a moment gives the moment back. -/
theorem parse?_render (h : t.OnCalendar) (zone : ZoneText) : parse? (t.render zone) = some t := by
  have inRange := h.inRange
  simp only [Timestamp.inRange, Bool.and_eq_true, decide_eq_true_eq] at inRange
  -- What was taken apart into date and time of day adds up to the moment again.
  have valid : t.date.isValid = true := Date.isValid_ofDays inRange.1 inRange.2
  have inDay : t.secondOfDay < 86400 := by
    rw [secondOfDay]
    omega
  have leap : 1000000000 ≤ t.nanos → t.secondOfDay % 60 = 59 := by
    intro isLeap
    have := h.leap isLeap
    rw [secondOfDay]
    omega
  have seconds : t.date.toDays * 86400 + t.secondOfDay - 0 = t.seconds := by
    rw [date, Date.toDays_ofDays, secondOfDay]
    omega
  have text : t.chars zone = yearChars t.date.year ++ '-' :: (padded 2 t.date.month ++
      '-' :: (padded 2 t.date.day ++ 'T' :: (padded 2 (t.secondOfDay / 3600) ++
      ':' :: (padded 2 (t.secondOfDay / 60 % 60) ++
      ':' :: (padded 2 (if 1000000000 ≤ t.nanos then t.secondOfDay % 60 + 1
          else t.secondOfDay % 60) ++
        (fractionChars (if 1000000000 ≤ t.nanos then t.nanos - 1000000000 else t.nanos) ++
          zone.chars)))))) := by
    simp [chars]
  rw [parse?, render, String.toList_ofList, Reader.moment, text, Reader.date_chars valid]
  simp only [Option.bind_eq_bind, Option.bind_some, Reader.betweenDateAndTime]
  rw [Reader.timeOfDay_chars inDay h.short leap]
  simp only [Option.bind_some]
  rw [Reader.offset_zone]
  simp only [Option.bind_some, seconds, h.inRange]
  rfl

end Timestamp

end Placement
