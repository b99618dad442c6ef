/-
The text of a JSON value is read as that value.

Texts hold no floating-point numbers, and whole ones that fit 64 bits (`Json.Plain`). Fields of an object
may stand in any order in its text; reading puts them in ascending order (`Json.normal`). Each reader takes
what was written for it and leaves the rest: `Reader.stringBody_quoted` for strings, `Reader.unsigned_digits`
for numbers, `Plain.reads` for values. `Json.parse?_render` puts them together.
-/
import Mathlib.Data.List.TakeDrop
import Placement.Json.Reader
import Placement.Json.Writer
import Placement.Proofs.Moment

namespace Placement.Json

/-! ## Strings -/

/-- A character is written as it is, as a short escape, or as the number of a control character. -/
theorem escaped_cases (c : Char) :
    (escaped c = [c] ∧ c ≠ '"' ∧ c ≠ '\\' ∧ ¬ c.toNat < 32) ∨
    (∃ e, escaped c = ['\\', e] ∧ e ≠ 'u' ∧ Reader.shortEscape? e = some c) ∨
    (∃ n < 32, c = Char.ofNat n ∧ escaped c = ['\\', 'u', '0', '0', hexDigit (n / 16), hexDigit n]) := by
  have small (n : Nat) (hn : c.toNat = n) : c = Char.ofNat n := by rw [← hn, Char.ofNat_toNat]
  by_cases quote : c = '"'
  · exact .inr (.inl ⟨'"', by rw [quote]; rfl, by decide, by rw [quote]; rfl⟩)
  by_cases backslash : c = '\\'
  · exact .inr (.inl ⟨'\\', by rw [backslash]; rfl, by decide, by rw [backslash]; rfl⟩)
  by_cases newline : c = '\n'
  · exact .inr (.inl ⟨'n', by rw [newline]; rfl, by decide, by rw [newline]; rfl⟩)
  by_cases return_ : c = '\r'
  · exact .inr (.inl ⟨'r', by rw [return_]; rfl, by decide, by rw [return_]; rfl⟩)
  by_cases tab : c = '\t'
  · exact .inr (.inl ⟨'t', by rw [tab]; rfl, by decide, by rw [tab]; rfl⟩)
  by_cases back : c.toNat = 8
  · obtain rfl := small 8 back
    exact .inr (.inl ⟨'b', rfl, by decide, rfl⟩)
  by_cases feed : c.toNat = 12
  · obtain rfl := small 12 feed
    exact .inr (.inl ⟨'f', rfl, by decide, rfl⟩)
  by_cases control : c.toNat < 32
  · exact .inr (.inr ⟨c.toNat, control, small _ rfl, by
      simp [escaped, quote, backslash, newline, return_, tab, back, feed, control]⟩)
  · exact .inl ⟨by simp [escaped, quote, backslash, newline, return_, tab, back, feed, control],
      quote, backslash, control⟩

namespace Reader

theorem hex4_hexDigits {n : Nat} (h : n < 32) (tail : List Char) :
    hex4 ('0' :: '0' :: hexDigit (n / 16) :: hexDigit n :: tail) = some (n, tail) := by
  have digits : ∀ n < 32, hexValue? (hexDigit (n / 16)) = some (n / 16) ∧
    hexValue? (hexDigit n) = some (n % 16) := by decide
  obtain ⟨high, low⟩ := digits n h
  have zero : hexValue? '0' = some 0 := rfl
  have value : ((0 * 16 + 0) * 16 + n / 16) * 16 + n % 16 = n := by omega
  rw [hex4, zero, high, low]
  exact congrArg (fun n => some (n, tail)) value

/-- The number of a control character denotes it. -/
theorem unicodeEscape_hexDigits {n : Nat} (h : n < 32) (tail : List Char) :
    unicodeEscape ('0' :: '0' :: hexDigit (n / 16) :: hexDigit n :: tail) = some (Char.ofNat n, tail) := by
  have high : ¬ 0xD800 ≤ n := by omega
  have low : ¬ 0xDC00 ≤ n := by omega
  simp [unicodeEscape, hex4_hexDigits h, high, low]

theorem hexDigit_plain {n : Nat} (h : n < 32) : hexDigit n ≠ '"' ∧ hexDigit n ≠ '\\' ∧
    ¬ (hexDigit n).toNat < 32 := by
  have all : ∀ n < 32, hexDigit n ≠ '"' ∧ hexDigit n ≠ '\\' ∧ ¬ (hexDigit n).toNat < 32 := by decide
  exact all n h

theorem rawString_plain {c : Char} (quote : c ≠ '"') (backslash : c ≠ '\\') (visible : ¬ c.toNat < 32)
    (tail : List Char) : rawString (c :: tail) = (rawString tail).map fun (cs, r) => (c :: cs, r) := by
  rw [rawString]
  · rw [if_neg visible]
  · exact quote
  · exact fun _ _ h _ => backslash h

/-- A written character is taken as a whole. -/
theorem rawString_escaped (c : Char) (tail : List Char) :
    rawString (escaped c ++ tail) = (rawString tail).map fun (cs, r) => (escaped c ++ cs, r) := by
  obtain ⟨same, quote, backslash, visible⟩ | ⟨e, short, -, -⟩ | ⟨n, small, -, long⟩ := escaped_cases c
  · rw [same]
    exact rawString_plain quote backslash visible tail
  · rw [short]
    rfl
  · obtain ⟨quote, backslash, visible⟩ := hexDigit_plain small
    have high : n / 16 < 32 := by omega
    obtain ⟨quote', backslash', visible'⟩ := hexDigit_plain high
    have zero := fun tail => rawString_plain (c := '0') (by decide) (by decide) (by decide) tail
    rw [long]
    show rawString ('\\' :: 'u' :: '0' :: '0' :: hexDigit (n / 16) :: hexDigit n :: tail) = _
    rw [rawString, zero, zero, rawString_plain quote' backslash' visible',
      rawString_plain quote backslash visible]
    cases rawString tail <;> rfl

/-- A string ends at the quote behind what was written of it. -/
theorem rawString_quoted (cs rest : List Char) :
    rawString (cs.flatMap escaped ++ '"' :: rest) = some (cs.flatMap escaped, rest) := by
  induction cs with
  | nil => rfl
  | cons c cs ih =>
    rw [List.flatMap_cons, List.append_assoc, rawString_escaped, ih]
    rfl

/-- A written character denotes itself. -/
theorem unescaped_escaped (fuel : Nat) (c : Char) (tail : List Char) :
    unescaped (fuel + 1) (escaped c ++ tail) = (unescaped fuel tail).map (c :: ·) := by
  obtain ⟨same, -, backslash, -⟩ | ⟨e, short, other, denotes⟩ | ⟨n, small, rfl, long⟩ := escaped_cases c
  · rw [same]
    show unescaped (fuel + 1) (c :: tail) = _
    rw [unescaped]
    · exact fun _ h _ => backslash h
    · exact fun _ _ h _ => backslash h
  · rw [short]
    show unescaped (fuel + 1) ('\\' :: e :: tail) = _
    rw [unescaped, denotes]
    · rfl
    · exact other
  · rw [long]
    show unescaped (fuel + 1) ('\\' :: 'u' :: '0' :: '0' :: hexDigit (n / 16) :: hexDigit n :: tail) = _
    rw [unescaped, unicodeEscape_hexDigits small]
    rfl

theorem unescaped_flatMap {fuel : Nat} {cs : List Char} (h : cs.length < fuel) :
    unescaped fuel (cs.flatMap escaped) = some cs := by
  induction cs generalizing fuel with
  | nil =>
    cases fuel with
    | zero => cases h
    | succ fuel => rfl
  | cons c cs ih =>
    cases fuel with
    | zero => cases h
    | succ fuel =>
      rw [List.flatMap_cons, unescaped_escaped, ih (Nat.lt_of_succ_lt_succ h)]
      rfl

theorem escaped_ne_nil (c : Char) : escaped c ≠ [] := by
  obtain ⟨same, -⟩ | ⟨e, short, -⟩ | ⟨n, -, -, long⟩ := escaped_cases c
  · simp [same]
  · simp [short]
  · simp [long]

theorem length_le_flatMap (cs : List Char) : cs.length ≤ (cs.flatMap escaped).length := by
  induction cs with
  | nil => exact Nat.le_refl 0
  | cons c cs ih =>
    have some_char := List.length_pos_iff.2 (escaped_ne_nil c)
    rw [List.flatMap_cons, List.length_append, List.length_cons]
    omega

/-- A string is read back from its quotes. -/
theorem stringBody_quoted (s : String) (rest : List Char) :
    stringBody (s.toList.flatMap escaped ++ '"' :: rest) = some (s, rest) := by
  rw [stringBody, rawString_quoted]
  show (unescaped _ _).bind _ = _
  rw [unescaped_flatMap (Nat.lt_succ_of_le (length_le_flatMap s.toList))]
  show some (String.ofList s.toList, rest) = _
  rw [String.ofList_toList]

/-! ## Numbers -/

/-- The text does not go on with a part of a number. -/
def StopsNumber (cs : List Char) : Prop :=
  ∀ c ∈ cs.head?, c.isDigit = false ∧ c ≠ '.' ∧ c ≠ 'e' ∧ c ≠ 'E'

/-- Only zero begins with a zero. -/
theorem toDigits_zero_cons {n : Nat} {ds : List Char} (h : Nat.toDigits 10 n = '0' :: ds) : ds = [] := by
  induction n using Nat.strongRecOn generalizing ds with
  | ind n ih =>
    by_cases small : n < 10
    · rw [Nat.toDigits_of_lt_base small] at h
      exact (List.cons.inj h).2.symm
    · have large : 10 ≤ n := Nat.not_lt.1 small
      rw [Nat.toDigits_of_base_le (by decide) large] at h
      obtain ⟨d, more, front⟩ := List.exists_cons_of_ne_nil (Nat.toDigits_ne_nil (n := n / 10) (b := 10))
      have first : d = '0' := by
        rw [front] at h
        exact (List.cons.inj h).1
      subst first
      have alone := ih (n / 10) (by omega) front
      have value := Nat.ofDigitChars_ten_toDigits (n := n / 10)
      rw [front, alone] at value
      have zero : Nat.ofDigitChars 10 ['0'] 0 = 0 := rfl
      omega

theorem exists_toDigits (n : Nat) : ∃ d ds, Nat.toDigits 10 n = d :: ds ∧ d.isDigit = true := by
  obtain ⟨d, ds, written⟩ := List.exists_cons_of_ne_nil (Nat.toDigits_ne_nil (n := n) (b := 10))
  refine ⟨d, ds, written, Nat.isDigit_of_mem_toDigits (n := n) (b := 10) (by decide) (by decide) ?_⟩
  rw [written]
  exact List.mem_cons_self

theorem span_digits {ds rest : List Char} (digits : ∀ c ∈ ds, c.isDigit = true) (stops : StopsNumber rest) :
    (ds ++ rest).span Char.isDigit = (ds, rest) := by
  rw [List.span_eq_takeWhile_dropWhile, List.takeWhile_append_of_pos digits,
    List.dropWhile_append_of_pos digits]
  cases rest with
  | nil => simp
  | cons c cs => simp [(stops c rfl).1]

/-- A whole number that fits is read back from its digits. -/
theorem unsigned_digits {negative : Bool} {n : Nat} {rest : List Char} (stops : StopsNumber rest)
    (fits : if negative then 0 < n ∧ n ≤ 0x8000000000000000 else n < 0x10000000000000000) :
    unsigned negative (Nat.toDigits 10 n ++ rest) =
      some (.int (if negative then -(n : Int) else n), rest) := by
  have digits : ∀ c ∈ Nat.toDigits 10 n, c.isDigit = true :=
    fun c hc => Nat.isDigit_of_mem_toDigits (by decide) (by decide) hc
  have value : Text.digitsValue (Nat.toDigits 10 n) = n := by
    rw [Text.digitsValue_eq digits, Nat.ofDigitChars_ten_toDigits]
  have fits : (if negative then 0 < n && n ≤ 0x8000000000000000 else n < 0x10000000000000000) = true := by
    cases negative <;> simpa using fits
  have no_fraction : fraction rest = some (none, rest) := by
    cases rest with
    | nil => rfl
    | cons c cs =>
      rw [fraction]
      exact fun _ h => (stops c rfl).2.1 (List.cons.inj h).1
  have no_exponent : exponentPart rest = some (none, rest) := by
    cases rest with
    | nil => rfl
    | cons c cs =>
      rw [exponentPart]
      · exact fun _ h => (stops c rfl).2.2.1 (List.cons.inj h).1
      · exact fun _ h => (stops c rfl).2.2.2 (List.cons.inj h).1
  rw [unsigned, span_digits digits stops]
  split
  · next none_written => exact absurd (Prod.mk.inj none_written).1 Nat.toDigits_ne_nil
  · next more _ zero => cases toDigits_zero_cons (Prod.mk.inj zero).1
  · simp only [Option.bind_eq_bind, Option.bind_some, no_fraction, no_exponent, value, fits,
      Option.isNone_none, Bool.and_true, if_true]

end Reader

/-! ## Values -/

/-- No floating-point numbers, and whole numbers that fit 64 bits with or without sign. -/
inductive Plain : Json → Prop
  | null : Plain .null
  | bool (b : Bool) : Plain (.bool b)
  | int {n : Int} (low : -0x8000000000000000 ≤ n) (high : n < 0x10000000000000000) : Plain (.int n)
  | str (s : String) : Plain (.str s)
  | arr {items : List Json} (h : ∀ x ∈ items, Plain x) : Plain (.arr items)
  | obj {fields : List (String × Json)} (h : ∀ f ∈ fields, Plain f.2) : Plain (.obj fields)

mutual

/-- The value with the fields of each object in ascending order. -/
def normal : Json → Json
  | .arr items => .arr (normalItems items)
  | .obj fields => .ofFields (normalFields fields)
  | j => j

def normalItems : List Json → List Json
  | [] => []
  | x :: xs => x.normal :: normalItems xs

def normalFields : List (String × Json) → List (String × Json)
  | [] => []
  | (name, x) :: rest => (name, x.normal) :: normalFields rest

end

/-- The characters of a value are read as it, whatever comes after them. -/
def Reads (j : Json) : Prop := ∀ fuel rest, j.chars.length ≤ fuel → Reader.StopsNumber rest →
  Reader.value fuel (j.chars ++ rest) = some (j.normal, rest)

namespace Reader

/-- The character is not skipped in front of a value. -/
def Solid (c : Char) : Prop := c ≠ ' ' ∧ c ≠ '\n' ∧ c ≠ '\r' ∧ c ≠ '\t'

instance (c : Char) : Decidable (Solid c) :=
  inferInstanceAs (Decidable (c ≠ ' ' ∧ c ≠ '\n' ∧ c ≠ '\r' ∧ c ≠ '\t'))

theorem solid_of_isDigit {c : Char} (h : c.isDigit = true) : Solid c := by
  refine ⟨?_, ?_, ?_, ?_⟩ <;> (rintro rfl; cases h)

theorem skipSpace_cons {c : Char} (h : Solid c) (cs : List Char) : skipSpace (c :: cs) = c :: cs := by
  obtain ⟨space, newline, return_, tab⟩ := h
  simp [skipSpace, space, newline, return_, tab]

/-- A value starts with a character that is no space and does not end an array. -/
theorem exists_chars {j : Json} (h : j.Plain) : ∃ c cs, j.chars = c :: cs ∧ c ≠ ']' ∧ Solid c := by
  cases h with
  | null => exact ⟨'n', _, rfl, by decide⟩
  | bool b => cases b <;> exact ⟨_, _, rfl, by decide⟩
  | @int n =>
    rw [chars]
    split
    · exact ⟨'-', _, rfl, by decide⟩
    · obtain ⟨d, ds, hds, digit⟩ := exists_toDigits n.natAbs
      have bracket : d ≠ ']' := by
        rintro rfl
        cases digit
      exact ⟨d, ds, hds, bracket, solid_of_isDigit digit⟩
  | str s => exact ⟨'"', _, rfl, by decide⟩
  | @arr items => cases items <;> exact ⟨'[', _, rfl, by decide⟩
  | @obj fields => cases fields <;> exact ⟨'\x7b', _, rfl, by decide⟩

theorem stopsNumber_charsOfItems (xs : List Json) (rest : List Char) :
    StopsNumber (charsOfItems xs ++ rest) := by
  cases xs <;> (rintro c hc; cases hc; decide)

theorem stopsNumber_charsOfFields (fs : List (String × Json)) (rest : List Char) :
    StopsNumber (charsOfFields fs ++ rest) := by
  cases fs with
  | nil => rintro c hc; cases hc; decide
  | cons f fs => rintro c hc; cases hc; decide

/-- The items of an array are read if each of them is. -/
theorem items_chars {x : Json} {xs : List Json} (reads : ∀ y ∈ x :: xs, y.Reads) {fuel : Nat}
    (enough : x.chars.length + (charsOfItems xs).length ≤ fuel) (rest : List Char) :
    items fuel (x.chars ++ (charsOfItems xs ++ rest)) = some (normalItems (x :: xs), rest) := by
  induction xs generalizing x fuel with
  | nil =>
    cases fuel with
    | zero => simp [charsOfItems] at enough
    | succ fuel =>
      have read := reads x List.mem_cons_self fuel (charsOfItems [] ++ rest)
        (Nat.le_of_succ_le_succ enough) (stopsNumber_charsOfItems [] rest)
      rw [items, read]
      rfl
  | cons y ys ih =>
    have next : charsOfItems (y :: ys) ++ rest = ',' :: (y.chars ++ (charsOfItems ys ++ rest)) := by
      simp [charsOfItems]
    have length : (charsOfItems (y :: ys)).length = y.chars.length + (charsOfItems ys).length + 1 := by
      simp [charsOfItems]
    cases fuel with
    | zero => omega
    | succ fuel =>
      have read := reads x List.mem_cons_self fuel (charsOfItems (y :: ys) ++ rest) (by omega)
        (stopsNumber_charsOfItems (y :: ys) rest)
      have more := ih (fun z hz => reads z (List.mem_cons_of_mem x hz)) (show _ ≤ fuel by omega)
      rw [items, read, next]
      show (items fuel (y.chars ++ (charsOfItems ys ++ rest))).map _ = _
      rw [more]
      rfl

/-- The quotes around a name end before what comes after them. -/
theorem quoted_append (name : String) (tail : List Char) :
    quoted name ++ tail = '"' :: (name.toList.flatMap escaped ++ '"' :: tail) := by
  simp [quoted]

section

variable {name : String} {x : Json} {fuel : Nat} {rest : List Char}

/-- A field with another one behind it. -/
theorem members_comma
    (read : value fuel (x.chars ++ ',' :: rest) = some (x.normal, ',' :: rest)) :
    members (fuel + 1) (quoted name ++ ':' :: (x.chars ++ ',' :: rest)) =
      (members fuel rest).map fun (fs, r) => ((name, x.normal) :: fs, r) := by
  rw [members, quoted_append]
  show (stringBody _).bind _ = _
  rw [stringBody_quoted]
  show (value fuel _).bind _ = _
  rw [read]
  rfl

/-- The last field. -/
theorem members_brace
    (read : value fuel (x.chars ++ '\x7d' :: rest) = some (x.normal, '\x7d' :: rest)) :
    members (fuel + 1) (quoted name ++ ':' :: (x.chars ++ '\x7d' :: rest)) =
      some ([(name, x.normal)], rest) := by
  rw [members, quoted_append]
  show (stringBody _).bind _ = _
  rw [stringBody_quoted]
  show (value fuel _).bind _ = _
  rw [read]
  rfl

end

/-- The fields of an object are read if the value of each is. -/
theorem members_chars {name : String} {x : Json} {fs : List (String × Json)}
    (reads : ∀ f ∈ (name, x) :: fs, f.2.Reads) {fuel : Nat}
    (enough : (quoted name).length + x.chars.length + (charsOfFields fs).length ≤ fuel)
    (rest : List Char) :
    members fuel (quoted name ++ ':' :: (x.chars ++ (charsOfFields fs ++ rest))) =
      some (normalFields ((name, x) :: fs), rest) := by
  have first : x.Reads := reads (name, x) List.mem_cons_self
  induction fs generalizing name x fuel with
  | nil =>
    have length : (charsOfFields []).length = 1 := rfl
    cases fuel with
    | zero => omega
    | succ fuel =>
      exact members_brace (first fuel _ (by omega) (stopsNumber_charsOfFields [] rest))
  | cons f fs ih =>
    obtain ⟨name', y⟩ := f
    have next : charsOfFields ((name', y) :: fs) ++ rest =
        ',' :: (quoted name' ++ ':' :: (y.chars ++ (charsOfFields fs ++ rest))) := by
      simp [charsOfFields]
    have length : (charsOfFields ((name', y) :: fs)).length =
        (quoted name').length + y.chars.length + (charsOfFields fs).length + 2 := by
      simp [charsOfFields]
      omega
    cases fuel with
    | zero => omega
    | succ fuel =>
      have others : ∀ f ∈ (name', y) :: fs, f.2.Reads := fun f hf => reads f (List.mem_cons_of_mem _ hf)
      have more := ih others (show _ ≤ fuel by omega) (others _ List.mem_cons_self)
      have read := first fuel _ (by omega) (stopsNumber_charsOfFields ((name', y) :: fs) rest)
      rw [next] at read ⊢
      rw [members_comma read, more]
      rfl

/-- What begins with a digit is a number. -/
theorem value_digit {d : Char} (digit : d.isDigit = true) (fuel : Nat) (cs : List Char) :
    value (fuel + 1) (d :: cs) = unsigned false (d :: cs) := by
  rw [value, skipSpace_cons (solid_of_isDigit digit)]
  split
  case h_8 => rfl
  all_goals
    next start =>
      cases start
      cases digit

/-- An array with items is read if they are. -/
theorem value_items {c : Char} (bracket : c ≠ ']') (solid : Solid c) (fuel : Nat) (cs : List Char) :
    value (fuel + 1) ('[' :: c :: cs) = (items fuel (c :: cs)).map fun (xs, r) => (.arr xs, r) := by
  rw [value, skipSpace_cons (by decide)]
  split
  case h_5 rest start =>
    obtain rfl := (List.cons.inj start).2
    rw [skipSpace_cons solid]
    split
    · next start => exact absurd (List.cons.inj start).1 bracket
    · rfl
  case h_8 _ _ other _ _ => exact absurd rfl (other _)
  all_goals
    next start => exact absurd (List.cons.inj start).1 (by decide)

/-- An object with fields is read if they are. -/
theorem value_members (name : String) (fuel : Nat) (tail : List Char) :
    value (fuel + 1) ('\x7b' :: (quoted name ++ tail)) =
      (members fuel (quoted name ++ tail)).map fun (fs, r) => (Json.ofFields fs, r) := by
  rw [quoted_append, value, skipSpace_cons (by decide)]
  split
  case h_6 rest start =>
    obtain rfl := (List.cons.inj start).2
    rw [skipSpace_cons (by decide)]
    rfl
  case h_8 _ _ _ other _ => exact absurd rfl (other _)
  all_goals
    next start => exact absurd (List.cons.inj start).1 (by decide)

end Reader

/-- Every value without floating-point numbers is read from its characters. -/
theorem Plain.reads {j : Json} (h : j.Plain) : j.Reads := by
  induction h with
  | null =>
    intro fuel rest enough _
    cases fuel with
    | zero => cases enough
    | succ fuel => rfl
  | bool b =>
    intro fuel rest enough _
    cases fuel with
    | zero => cases b <;> cases enough
    | succ fuel => cases b <;> rfl
  | @int n low high =>
    intro fuel rest enough stops
    cases fuel with
    | zero =>
      obtain ⟨c, cs, start, -⟩ := Reader.exists_chars (.int low high)
      rw [start] at enough
      cases enough
    | succ fuel =>
      by_cases negative : n < 0
      · have written : (Json.int n).chars ++ rest = '-' :: (Nat.toDigits 10 n.natAbs ++ rest) := by
          rw [chars, if_pos negative, List.cons_append]
        have fits : if true then 0 < n.natAbs ∧ n.natAbs ≤ 0x8000000000000000
          else n.natAbs < 0x10000000000000000 := by rw [if_pos rfl]; omega
        have value : -(n.natAbs : Int) = n := by omega
        rw [written]
        show Reader.unsigned true _ = _
        rw [Reader.unsigned_digits stops fits, if_pos rfl, value]
        rfl
      · have written : (Json.int n).chars ++ rest = Nat.toDigits 10 n.natAbs ++ rest := by
          rw [chars, if_neg negative]
        have fits : if false then 0 < n.natAbs ∧ n.natAbs ≤ 0x8000000000000000
          else n.natAbs < 0x10000000000000000 := by rw [if_neg nofun]; omega
        have value : (n.natAbs : Int) = n := by omega
        have read := Reader.unsigned_digits stops fits
        obtain ⟨d, ds, hds, digit⟩ := Reader.exists_toDigits n.natAbs
        rw [hds, List.cons_append] at written read
        rw [written, Reader.value_digit digit, read, if_neg nofun, value]
        rfl
  | str s =>
    intro fuel rest enough _
    cases fuel with
    | zero => cases enough
    | succ fuel =>
      show Reader.value (fuel + 1) (quoted s ++ rest) = _
      rw [Reader.quoted_append, Reader.value]
      show (Reader.stringBody _).map _ = _
      rw [Reader.stringBody_quoted]
      rfl
  | @arr items h ih =>
    intro fuel rest enough _
    cases items with
    | nil =>
      cases fuel with
      | zero => cases enough
      | succ fuel => rfl
    | cons x xs =>
      cases fuel with
      | zero => cases enough
      | succ fuel =>
        have length : (chars (.arr (x :: xs))).length =
          x.chars.length + (charsOfItems xs).length + 1 := by simp [chars]
        have read := Reader.items_chars ih (show _ ≤ fuel by omega) rest
        obtain ⟨c, cs, start, bracket, solid⟩ := Reader.exists_chars (h x List.mem_cons_self)
        have written : (Json.arr (x :: xs)).chars ++ rest =
          '[' :: (x.chars ++ (charsOfItems xs ++ rest)) := by simp [chars]
        rw [start] at read written
        rw [written]
        show Reader.value (fuel + 1) ('[' :: c :: (cs ++ (charsOfItems xs ++ rest))) = _
        rw [Reader.value_items bracket solid]
        show (Reader.items fuel (c :: cs ++ (charsOfItems xs ++ rest))).map _ = _
        rw [read]
        rfl
  | @obj fields h ih =>
    intro fuel rest enough _
    cases fields with
    | nil =>
      cases fuel with
      | zero => cases enough
      | succ fuel => rfl
    | cons f fs =>
      obtain ⟨name, x⟩ := f
      cases fuel with
      | zero => cases enough
      | succ fuel =>
        have length : (chars (.obj ((name, x) :: fs))).length =
            (quoted name).length + x.chars.length + (charsOfFields fs).length + 2 := by
          simp [chars]
          omega
        have read := Reader.members_chars ih (show _ ≤ fuel by omega) rest
        have written : (Json.obj ((name, x) :: fs)).chars ++ rest =
          '\x7b' :: (quoted name ++ ':' :: (x.chars ++ (charsOfFields fs ++ rest))) := by simp [chars]
        rw [written, Reader.value_members, read]
        rfl

/-- The text of a value is read as the value with its fields in order. -/
theorem parse?_render {j : Json} (h : j.Plain) : parse? j.render = some j.normal := by
  have read := h.reads (j.chars.length + 1) [] (Nat.le_succ _) nofun
  rw [List.append_nil] at read
  rw [parse?, render, String.toList_ofList, read]
  rfl

end Placement.Json
