import Mathlib.Algebra.Ring.Nat
import Mathlib.Data.List.TakeWhile
import Tenancy.Proofs.Operation
import Tenancy.Proofs.Time
import Tenancy.Time.Printer
import Tenancy.Time.Reader

/-!
# Times are read back from their text

A time of the calendar is read back from its form on the wire, and every text that is read gives a
time of the calendar.

* `Time.IsValid`: a time of the calendar, leap seconds included.
* `Time.read_wireText`, `Time.isValid_read`.
-/

namespace Tenancy.Time

/-- A time of the calendar.  A leap second can only be the last second of a minute. -/
structure IsValid (t : Time) : Prop where
  inRange : t.isInRange = true
  nanos : t.nanos < 1000000000 ∨ t.nanos < 2000000000 ∧ t.seconds % 60 = 59

theorem isValid_iff (t : Time) : t.IsValid ↔ t.isInRange = true ∧
    (t.nanos < 1000000000 ∨ t.nanos < 2000000000 ∧ t.seconds % 60 = 59) :=
  ⟨fun h => ⟨h.inRange, h.nanos⟩, fun h => ⟨h.1, h.2⟩⟩

instance (t : Time) : Decidable t.IsValid := decidable_of_iff' _ (isValid_iff t)

/-! ## Digits -/

theorem isBlank_of_isDigit {c : Char} (hDigit : c.isDigit = true) : isBlank c = false := by
  obtain ⟨hLow, hHigh⟩ := Char.isDigit_iff_toNat.1 hDigit
  change 48 ≤ c.toNat at hLow
  change c.toNat ≤ 57 at hHigh
  simp only [isBlank, Bool.or_eq_false_iff, Bool.and_eq_false_iff, decide_eq_false_iff_not,
    beq_eq_false_iff_ne]
  omega

theorem skipBlank_cons {c : Char} (hNot : isBlank c = false) (cs : List Char) :
    skipBlank (c :: cs) = c :: cs := List.dropWhile_cons_of_neg (by simp [hNot])

theorem digits_ne_cons {c : Char} {digits rest rest' : List Char} (hNot : c.isDigit = false)
    (hDigits : ∀ c ∈ digits, c.isDigit = true) (hSome : digits ≠ []) :
    digits ++ rest ≠ c :: rest' := by
  intro hSame
  cases digits with
  | nil => exact hSome rfl
  | cons d digits =>
    obtain ⟨rfl, -⟩ := List.cons.inj hSame
    rw [hDigits d List.mem_cons_self] at hNot
    cases hNot

theorem skipBlank_digits {digits : List Char} (hDigits : ∀ c ∈ digits, c.isDigit = true)
    (hSome : digits ≠ []) (rest : List Char) : skipBlank (digits ++ rest) = digits ++ rest := by
  cases digits with
  | nil => exact absurd rfl hSome
  | cons c digits => exact skipBlank_cons (isBlank_of_isDigit (hDigits c List.mem_cons_self)) _

theorem foldl_digits (digits : List Char) (start : Nat) :
    digits.foldl (fun n c => n * 10 + (c.toNat - '0'.toNat)) start =
      Nat.ofDigitChars 10 digits start := by
  rw [Nat.ofDigitChars_eq_foldl]
  congr 1
  funext n c
  rw [Nat.mul_comm]

def window (width : Option Nat) (cs : List Char) : List Char :=
  match width with
  | some n => cs.take n
  | none => cs

theorem readNumber_eq (width : Option Nat) (cs : List Char) :
    readNumber width cs =
      if ((window width cs).takeWhile Char.isDigit).isEmpty then
        .error (if cs.isEmpty then .tooShort else .invalid)
      else if Nat.ofDigitChars 10 ((window width cs).takeWhile Char.isDigit) 0 ≤ maxField then
        .ok (Nat.ofDigitChars 10 ((window width cs).takeWhile Char.isDigit) 0,
          cs.drop ((window width cs).takeWhile Char.isDigit).length)
      else .error .outOfRange := by
  cases width <;> simp only [readNumber, foldl_digits, window] <;> rfl

/-- A run of digits is read as its value. -/
theorem readNumber_digits {width : Option Nat} {digits rest : List Char} (hSome : digits ≠ [])
    (hRun : (window width (digits ++ rest)).takeWhile Char.isDigit = digits)
    (hFits : Nat.ofDigitChars 10 digits 0 ≤ maxField) :
    readNumber width (digits ++ rest) = .ok (Nat.ofDigitChars 10 digits 0, rest) := by
  rw [readNumber_eq, hRun, if_neg (by simpa using hSome), if_pos hFits, List.drop_left]

def padded (width n : Nat) : List Char :=
  List.replicate (width - (Nat.toDigits 10 n).length) '0' ++ Nat.toDigits 10 n

theorem toList_pad (width n : Nat) : (pad width n).toList = padded width n := String.toList_ofList

theorem isDigit_padded (width n : Nat) : ∀ c ∈ padded width n, c.isDigit = true := by
  intro c hMem
  rcases List.mem_append.1 hMem with hZero | hDigit
  · obtain rfl := List.eq_of_mem_replicate hZero
    rfl
  · exact Nat.isDigit_of_mem_toDigits (by decide) (by decide) hDigit

theorem padded_ne_nil (width n : Nat) : padded width n ≠ [] := by
  intro hNil
  exact Nat.toDigits_ne_nil (List.append_eq_nil_iff.1 hNil).2

theorem ofDigitChars_padded (width n : Nat) : Nat.ofDigitChars 10 (padded width n) 0 = n := by
  rw [padded, Nat.ofDigitChars_append, Nat.ofDigitChars_replicate_zero, Nat.mul_zero]
  exact Nat.ofDigitChars_ten_toDigits

theorem length_padded {width n : Nat} (hPos : 0 < width) (hLt : n < 10 ^ width) :
    (padded width n).length = width := by
  have hLength := (Nat.length_toDigits_le_iff (by decide) hPos).2 hLt
  rw [padded, List.length_append, List.length_replicate]
  omega

def EndsDigits (rest : List Char) : Prop := ∀ c ∈ rest.head?, c.isDigit = false

theorem endsDigits_nil : EndsDigits [] := by
  intro c hHead
  cases hHead

theorem endsDigits_cons {c : Char} (hNot : c.isDigit = false) (rest : List Char) :
    EndsDigits (c :: rest) := by
  intro d hHead
  obtain rfl := Option.some.inj hHead
  exact hNot

theorem takeWhile_digits {digits rest : List Char} (hDigits : ∀ c ∈ digits, c.isDigit = true)
    (hRest : EndsDigits rest) : (digits ++ rest).takeWhile Char.isDigit = digits := by
  rw [List.takeWhile_append_of_pos hDigits]
  cases rest with
  | nil => exact List.append_nil digits
  | cons c rest =>
    rw [List.takeWhile_cons_of_neg (by simp [hRest c rfl]), List.append_nil]

theorem readNumber_padded_exact (width : Nat) {n : Nat} (hPos : 0 < width) (hLt : n < 10 ^ width)
    (hFits : n ≤ maxField) (rest : List Char) :
    readNumber (some width) (padded width n ++ rest) = .ok (n, rest) := by
  have hRun : (window (some width) (padded width n ++ rest)).takeWhile Char.isDigit =
      padded width n := by
    have hAll := takeWhile_digits (isDigit_padded width n) endsDigits_nil
    rw [window, List.take_left' (length_padded hPos hLt)]
    rwa [List.append_nil] at hAll
  have hRead := readNumber_digits (padded_ne_nil width n) hRun (by rwa [ofDigitChars_padded])
  rwa [ofDigitChars_padded] at hRead

theorem readNumber_padded_free (width : Nat) {n : Nat} (hFits : n ≤ maxField) {rest : List Char}
    (hRest : EndsDigits rest) : readNumber none (padded width n ++ rest) = .ok (n, rest) := by
  have hRun : (window none (padded width n ++ rest)).takeWhile Char.isDigit = padded width n :=
    takeWhile_digits (isDigit_padded width n) hRest
  have hRead := readNumber_digits (padded_ne_nil width n) hRun (by rwa [ofDigitChars_padded])
  rwa [ofDigitChars_padded] at hRead

/-! ## Fields -/

theorem readField_padded {low high n : Nat} (hLow : low ≤ n) (hHigh : n ≤ high) (hLt : n < 100)
    (rest : List Char) : readField low high (padded 2 n ++ rest) = .ok (n, rest) := by
  have hFits : n ≤ maxField := Nat.le_trans (Nat.le_of_lt hLt) (by decide)
  rw [readField, skipBlank_digits (isDigit_padded _ _) (padded_ne_nil 2 n),
    readNumber_padded_exact _ (by decide) hLt hFits, bind_ok]
  exact if_pos ⟨hLow, hHigh⟩

theorem readSeparator_cons {c : Char} (hNot : isBlank c = false) (cs : List Char) :
    readSeparator c (c :: cs) = .ok cs := by
  rw [readSeparator, skipBlank_cons hNot]
  exact if_pos rfl

/-- A year with what follows it, if it can be read. -/
def inRange (year : Int) (cs : List Char) : Except Fault (Int × List Char) :=
  if -maxYear - 1 ≤ year ∧ year ≤ maxYear then .ok (year, cs) else .error .outOfRange

theorem readYear_minus (cs : List Char) : readYear ('-' :: cs) =
    (readNumber none cs >>= fun read => inRange (-(read.1 : Int)) read.2) := rfl

theorem readYear_plus (cs : List Char) : readYear ('+' :: cs) =
    (readNumber none cs >>= fun read => inRange (read.1 : Int) read.2) := rfl

/-- A year without a sign has four digits. -/
theorem readYear_digits {n : Nat} (hLt : n < 10000) (rest : List Char) :
    readYear (padded 4 n ++ rest) = .ok ((n : Int), rest) := by
  have hFits : n ≤ maxField := Nat.le_trans (Nat.le_of_lt hLt) (by decide)
  have hRange : -maxYear - 1 ≤ (n : Int) ∧ (n : Int) ≤ maxYear := by
    rw [maxYear]
    omega
  have hNumber := readNumber_padded_exact 4 (by decide) hLt hFits rest
  rw [readYear, skipBlank_digits (isDigit_padded _ _) (padded_ne_nil 4 n)]
  split
  · rename_i hSign
    exact absurd hSign (digits_ne_cons rfl (isDigit_padded 4 n) (padded_ne_nil 4 n))
  · rename_i hSign
    exact absurd hSign (digits_ne_cons rfl (isDigit_padded 4 n) (padded_ne_nil 4 n))
  · rw [hNumber, bind_ok]
    exact if_pos hRange

theorem readYear_yearText {year : Int} (hLow : -262143 ≤ year) (hHigh : year ≤ 262142)
    (rest : List Char) :
    readYear ((yearText year).toList ++ '-' :: rest) = .ok (year, '-' :: rest) := by
  have hRange : -maxYear - 1 ≤ year ∧ year ≤ maxYear := by
    rw [maxYear]
    omega
  have hFits : year.natAbs ≤ maxField := by
    rw [maxField]
    omega
  have hNumber := readNumber_padded_free 4 hFits (endsDigits_cons (rfl : '-'.isDigit = false) rest)
  rw [yearText]
  split
  · rename_i hPlain
    have hSame : ((year.toNat : Nat) : Int) = year := by omega
    rw [toList_pad, readYear_digits (by omega), hSame]
  · rw [String.toList_append, toList_pad]
    split
    · have hSame : -((year.natAbs : Nat) : Int) = year := by omega
      change readYear ('-' :: (padded 4 year.natAbs ++ '-' :: rest)) = _
      rw [readYear_minus, hNumber, bind_ok, hSame, inRange, if_pos hRange]
    · have hSame : ((year.natAbs : Nat) : Int) = year := by omega
      change readYear ('+' :: (padded 4 year.natAbs ++ '-' :: rest)) = _
      rw [readYear_plus, hNumber, bind_ok, hSame, inRange, if_pos hRange]

/-- A fraction of at most nine digits. -/
theorem readFraction_padded {width n : Nat} (hPos : 0 < width) (hWidth : width ≤ 9)
    (hLt : n < 10 ^ width) :
    readFraction ('.' :: padded width n ++ ['Z']) = .ok (n * Nat.pow 10 (9 - width), ['Z']) := by
  have hLength := length_padded hPos hLt
  have hFits : n ≤ maxField := by
    have hPow : 10 ^ width ≤ 10 ^ 9 := Nat.pow_le_pow_right (by decide) hWidth
    rw [maxField]
    omega
  have hRun : (window (some 9) (padded width n ++ ['Z'])).takeWhile Char.isDigit =
      padded width n := by
    rw [window, List.take_append, List.take_of_length_le (by omega)]
    refine takeWhile_digits (isDigit_padded width n) ?_
    cases 9 - (padded width n).length with
    | zero => exact endsDigits_nil
    | succ _ => exact endsDigits_cons rfl _
  have hRead := readNumber_digits (padded_ne_nil width n) hRun (by rwa [ofDigitChars_padded])
  have hTaken : (padded width n ++ ['Z']).length - ['Z'].length = width := by
    rw [List.length_append, Nat.add_sub_cancel, hLength]
  rw [ofDigitChars_padded] at hRead
  rw [List.cons_append, readFraction, hRead, bind_ok]
  dsimp only
  rw [hTaken]
  rfl

theorem readFraction_fractionText {nanos : Nat} (hLt : nanos < 1000000000) :
    readFraction ((fractionText nanos).toList ++ ['Z']) = .ok (nanos, ['Z']) := by
  have hDigits : ∀ width n, ("." ++ pad width n).toList = '.' :: padded width n := by
    intro width n
    rw [String.toList_append, toList_pad]
    rfl
  rw [fractionText]
  split_ifs with hZero hMillis hMicros
  · subst hZero
    rfl
  · have hSame : nanos / 1000000 * Nat.pow 10 (9 - 3) = nanos := by
      change nanos / 1000000 * 1000000 = nanos
      omega
    rw [hDigits, readFraction_padded (by decide) (by decide) (by omega), hSame]
  · have hSame : nanos / 1000 * Nat.pow 10 (9 - 6) = nanos := by
      change nanos / 1000 * 1000 = nanos
      omega
    rw [hDigits, readFraction_padded (by decide) (by decide) (by omega), hSame]
  · have hSame : nanos * Nat.pow 10 (9 - 9) = nanos := Nat.mul_one nanos
    rw [hDigits, readFraction_padded (by decide) (by decide) hLt, hSame]

/-! ## Whole times -/

theorem toList_wireText (t : Time) : (wireText t).toList =
    (yearText t.date.year).toList ++ '-' :: (padded 2 t.date.month ++ '-' ::
      (padded 2 t.date.day ++ 'T' :: (padded 2 (t.secondOfDay / 3600) ++ ':' ::
        (padded 2 (t.secondOfDay / 60 % 60) ++ ':' ::
          (padded 2 (t.secondOfDay % 60 + if 1000000000 ≤ t.nanos then 1 else 0) ++
            ((fractionText (if 1000000000 ≤ t.nanos then t.nanos - 1000000000
              else t.nanos)).toList ++ ['Z'])))))) := by
  simp only [wireText, dateText, clockText, String.toList_append, toList_pad, List.append_assoc]
  rfl

theorem IsValid.isValid_date {t : Time} (hValid : t.IsValid) : t.date.isValid = true :=
  (Date.isValid_iff t.date).2
    ⟨(isInRange_iff t).1 hValid.inRange, Date.isDay_ofDayNumber t.dayNumber⟩

def fields (t : Time) : Fields where
  date := t.date
  hour := t.secondOfDay / 3600
  minute := t.secondOfDay / 60 % 60
  second := t.secondOfDay % 60 + if 1000000000 ≤ t.nanos then 1 else 0
  nanos := if 1000000000 ≤ t.nanos then t.nanos - 1000000000 else t.nanos
  offset := 0

theorem readFields_wireText {t : Time} (hValid : t.IsValid) :
    readFields (wireText t).toList = .ok (t.fields, []) := by
  obtain ⟨hFirst, hLast⟩ := (isInRange_iff t).1 hValid.inRange
  obtain ⟨hMonth, hMonths, hDay, hDays⟩ := Date.isDay_ofDayNumber t.dayNumber
  change 1 ≤ t.date.month at hMonth
  change t.date.month ≤ 12 at hMonths
  change 1 ≤ t.date.day at hDay
  change t.date.day ≤ daysInMonth t.date.year t.date.month at hDays
  have hLength : daysInMonth t.date.year t.date.month ≤ 31 := by
    rw [daysInMonth]
    split_ifs <;> decide
  have hSecond : t.secondOfDay < 86400 := by
    rw [secondOfDay]
    omega
  have hHour : t.secondOfDay / 3600 ≤ 23 := by omega
  have hMinute : t.secondOfDay / 60 % 60 ≤ 59 := by omega
  have hSeconds : (t.secondOfDay % 60 + if 1000000000 ≤ t.nanos then 1 else 0) ≤ 60 := by
    split <;> omega
  have hNanos : (if 1000000000 ≤ t.nanos then t.nanos - 1000000000 else t.nanos) < 1000000000 := by
    have hBound := hValid.nanos
    split <;> omega
  rw [toList_wireText, readFields, readYear_yearText hFirst hLast, bind_ok]
  dsimp only
  rw [readSeparator_cons rfl, bind_ok, readField_padded hMonth hMonths (by omega), bind_ok]
  dsimp only
  rw [readSeparator_cons rfl, bind_ok, readField_padded hDay (by omega) (by omega), bind_ok]
  dsimp only
  rw [if_pos (.inl rfl), bind_ok, readField_padded (Nat.zero_le _) hHour (by omega), bind_ok]
  dsimp only
  rw [readSeparator_cons rfl, bind_ok, readField_padded (Nat.zero_le _) hMinute (by omega), bind_ok]
  dsimp only
  rw [readSeparator_cons rfl, bind_ok, readField_padded (Nat.zero_le _) hSeconds (by omega),
    bind_ok]
  dsimp only
  rw [readFraction_fractionText hNanos, bind_ok]
  rfl

def Fields.instant (f : Fields) : Time where
  seconds := f.date.dayNumber * 86400 +
    (f.hour * 3600 + f.minute * 60 + if f.second = 60 then 59 else f.second : Nat) - f.offset
  nanos := f.nanos + if f.second = 60 then 1000000000 else 0

theorem ofFields_eq (f : Fields) :
    ofFields f =
      if f.date.isValid = true then
        if 86400 ≤ f.offset.natAbs then .error .outOfRange
        else if f.instant.isInRange = true then .ok f.instant else .error .impossible
      else .error .outOfRange := by
  rw [ofFields]
  cases f.date.isValid with
  | false => rfl
  | true =>
    by_cases hOffset : 86400 ≤ f.offset.natAbs
    · rw [if_pos hOffset, if_pos rfl, if_pos hOffset]
      rfl
    · rw [if_neg hOffset, if_pos rfl, if_neg hOffset]
      rfl

theorem instant_fields {t : Time} (hValid : t.IsValid) : t.fields.instant = t := by
  have hDay : t.date.dayNumber = t.seconds / 86400 := Date.dayNumber_ofDayNumber t.dayNumber
  have hSecondOfDay : (t.secondOfDay : Int) = t.seconds % 86400 := by
    rw [secondOfDay]
    omega
  have hNanos := hValid.nanos
  obtain ⟨seconds, nanos⟩ := t
  simp only [fields, Fields.instant, hDay, mk.injEq]
  generalize Time.secondOfDay _ = s at hSecondOfDay ⊢
  dsimp only at hSecondOfDay hNanos ⊢
  split
  · rename_i hLeap
    have hLast : s % 60 = 59 := by omega
    rw [if_pos (by omega), if_pos (by omega)]
    omega
  · rw [if_neg (by omega), if_neg (by omega)]
    omega

theorem ofFields_fields {t : Time} (hValid : t.IsValid) : ofFields t.fields = .ok t := by
  have hDate : t.fields.date.isValid = true := hValid.isValid_date
  have hOffset : ¬ 86400 ≤ t.fields.offset.natAbs := by simp [fields]
  rw [ofFields_eq, if_pos hDate, if_neg hOffset, instant_fields hValid, if_pos hValid.inRange]

/-- A time of the calendar is read back from its form on the wire. -/
theorem read_wireText {t : Time} (hValid : t.IsValid) : read (wireText t) = .ok t := by
  rw [read, readFields_wireText hValid, bind_ok]
  exact ofFields_fields hValid

/-! ## Times that are read -/

theorem isValid_ofFields {f : Fields} (hNanos : f.nanos < 1000000000) (hOffset : f.offset % 60 = 0)
    {t : Time} (hRead : ofFields f = .ok t) : t.IsValid := by
  rw [ofFields_eq] at hRead
  split at hRead
  · split at hRead
    · cases hRead
    · split at hRead
      · rename_i hRange
        obtain rfl := Except.ok.inj hRead
        refine ⟨hRange, ?_⟩
        simp only [Fields.instant]
        split <;> omega
      · cases hRead
  · cases hRead

/-- Digits are the digits of a number below a power of ten. -/
theorem ofDigitChars_lt {digits : List Char} (hDigits : ∀ c ∈ digits, c.isDigit = true) :
    Nat.ofDigitChars 10 digits 0 < 10 ^ digits.length := by
  induction digits with
  | nil => exact Nat.one_pos
  | cons c digits ih =>
    obtain ⟨hFirst, hRest⟩ := List.forall_mem_cons.1 hDigits
    obtain ⟨hLow, hHigh⟩ := Char.isDigit_iff_toNat.1 hFirst
    change 48 ≤ c.toNat at hLow
    change c.toNat ≤ 57 at hHigh
    have hDigit : c.toNat - '0'.toNat ≤ 9 := by
      change c.toNat - 48 ≤ 9
      omega
    have hTail := ih hRest
    rw [Nat.ofDigitChars_cons, Nat.ofDigitChars_eq_ofDigitChars_zero, Nat.mul_zero, Nat.zero_add,
      List.length_cons, Nat.pow_succ]
    calc 10 ^ digits.length * (c.toNat - '0'.toNat) + Nat.ofDigitChars 10 digits 0
        < 10 ^ digits.length * (c.toNat - '0'.toNat) + 10 ^ digits.length :=
          Nat.add_lt_add_left hTail _
      _ = 10 ^ digits.length * (c.toNat - '0'.toNat + 1) := (Nat.mul_succ _ _).symm
      _ ≤ 10 ^ digits.length * 10 := Nat.mul_le_mul_left _ (by omega)

theorem readFraction_lt {cs rest : List Char} {nanos : Nat}
    (hRead : readFraction cs = .ok (nanos, rest)) : nanos < 1000000000 := by
  rw [readFraction.eq_def] at hRead
  split at hRead
  · rename_i cs
    obtain ⟨⟨n, after⟩, hNumber, hSame⟩ := bind_eq_ok_iff.1 hRead
    obtain ⟨rfl, -⟩ := Prod.mk.inj (Except.ok.inj hSame)
    rw [readNumber_eq] at hNumber
    have hDigits : ∀ c ∈ (window (some 9) cs).takeWhile Char.isDigit, c.isDigit = true :=
      fun c hMem => List.mem_takeWhile_imp hMem
    have hNine : ((window (some 9) cs).takeWhile Char.isDigit).length ≤ 9 :=
      Nat.le_trans (List.takeWhile_prefix _).length_le (List.length_take_le 9 cs)
    have hAll : ((window (some 9) cs).takeWhile Char.isDigit).length ≤ cs.length :=
      Nat.le_trans (List.takeWhile_prefix _).length_le (List.length_take_le' 9 cs)
    generalize (window (some 9) cs).takeWhile Char.isDigit = digits at hNumber hDigits hNine hAll
    split at hNumber
    · cases hNumber
    split at hNumber
    · obtain ⟨rfl, rfl⟩ := Prod.mk.inj (Except.ok.inj hNumber)
      have hTaken : cs.length - (cs.drop digits.length).length = digits.length := by
        rw [List.length_drop]
        omega
      rw [hTaken]
      calc Nat.ofDigitChars 10 digits 0 * 10 ^ (9 - digits.length)
          < 10 ^ digits.length * 10 ^ (9 - digits.length) :=
            Nat.mul_lt_mul_of_pos_right (ofDigitChars_lt hDigits) (Nat.pow_pos (by decide))
        _ = 10 ^ 9 := by rw [← Nat.pow_add, Nat.add_sub_cancel' hNine]
    · cases hNumber
  · obtain ⟨rfl, -⟩ := Prod.mk.inj (Except.ok.inj hRead)
    decide

/-- Hours and minutes are whole minutes. -/
theorem wholeMinutes (sign : Int) (hours minutes : Nat) :
    sign * (hours * 3600 + minutes * 60 : Nat) % 60 = 0 := by
  have hFactor : hours * 3600 + minutes * 60 = 60 * (hours * 60 + minutes) := by omega
  rw [hFactor, Int.natCast_mul, Int.mul_left_comm]
  exact Int.mul_emod_right 60 _

theorem readOffset_mod {cs rest : List Char} {offset : Int}
    (hRead : readOffset cs = .ok (offset, rest)) : offset % 60 = 0 := by
  simp only [readOffset] at hRead
  split at hRead
  · cases hRead
  · obtain ⟨rfl, -⟩ := Prod.mk.inj (Except.ok.inj hRead)
    rfl
  · obtain ⟨rfl, -⟩ := Prod.mk.inj (Except.ok.inj hRead)
    rfl
  -- After each of the three signs come hours and minutes.
  iterate 3
    · split at hRead
      · split at hRead
        · split at hRead
          · split at hRead
            · obtain ⟨rfl, -⟩ := Prod.mk.inj (Except.ok.inj hRead)
              exact wholeMinutes _ _ _
            · split at hRead <;> cases hRead
          · split at hRead <;> cases hRead
          · cases hRead
        · cases hRead
      · split at hRead <;> cases hRead
      · cases hRead
  · cases hRead

theorem readZone_mod {cs rest : List Char} {offset : Int}
    (hRead : readZone cs = .ok (offset, rest)) : offset % 60 = 0 := by
  rw [readZone] at hRead
  split at hRead
  · obtain ⟨rfl, -⟩ := Prod.mk.inj (Except.ok.inj hRead)
    rfl
  · exact readOffset_mod hRead

theorem readFields_bounds {cs rest : List Char} {f : Fields}
    (hRead : readFields cs = .ok (f, rest)) : f.nanos < 1000000000 ∧ f.offset % 60 = 0 := by
  obtain ⟨⟨year, _⟩, -, hRead⟩ := bind_eq_ok_iff.1 hRead
  obtain ⟨_, -, hRead⟩ := bind_eq_ok_iff.1 hRead
  obtain ⟨⟨month, _⟩, -, hRead⟩ := bind_eq_ok_iff.1 hRead
  obtain ⟨_, -, hRead⟩ := bind_eq_ok_iff.1 hRead
  obtain ⟨⟨day, _⟩, -, hRead⟩ := bind_eq_ok_iff.1 hRead
  dsimp only at hRead
  split at hRead
  · obtain ⟨_, hShort, -⟩ := bind_eq_ok_iff.1 hRead
    cases hShort
  split at hRead
  · obtain ⟨_, -, hRead⟩ := bind_eq_ok_iff.1 hRead
    obtain ⟨⟨hour, _⟩, -, hRead⟩ := bind_eq_ok_iff.1 hRead
    obtain ⟨_, -, hRead⟩ := bind_eq_ok_iff.1 hRead
    obtain ⟨⟨minute, _⟩, -, hRead⟩ := bind_eq_ok_iff.1 hRead
    obtain ⟨_, -, hRead⟩ := bind_eq_ok_iff.1 hRead
    obtain ⟨⟨second, _⟩, -, hRead⟩ := bind_eq_ok_iff.1 hRead
    obtain ⟨⟨nanos, _⟩, hFraction, hRead⟩ := bind_eq_ok_iff.1 hRead
    obtain ⟨⟨offset, _⟩, hZone, hSame⟩ := bind_eq_ok_iff.1 hRead
    obtain ⟨rfl, -⟩ := Prod.mk.inj (Except.ok.inj hSame)
    exact ⟨readFraction_lt hFraction, readZone_mod hZone⟩
  · obtain ⟨_, hInvalid, -⟩ := bind_eq_ok_iff.1 hRead
    cases hInvalid

/-- Whatever is read is a time of the calendar. -/
theorem isValid_read {s : String} {t : Time} (hRead : read s = .ok t) : t.IsValid := by
  obtain ⟨⟨f, rest⟩, hFields, hRead⟩ := bind_eq_ok_iff.1 hRead
  obtain ⟨hNanos, hOffset⟩ := readFields_bounds hFields
  dsimp only at hRead
  split at hRead
  · exact isValid_ofFields hNanos hOffset hRead
  · cases hRead

end Tenancy.Time
