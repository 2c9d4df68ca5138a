import Mathlib.Data.List.TakeWhile
import Mathlib.Tactic.Linarith

/-! Texts as both programs handle them: printf-style numerals, the number
readers of Java and C, `substring` and `trim`. A text is a list of characters;
a byte of the C side is a character, and the terminating zero byte is `nul`.
Only ASCII digits count as digits. -/
namespace LazyAS.WireText

abbrev Text := List Char

def nul : Char := Char.ofNat 0

theorem each_char {P : Char → Prop} [DecidablePred P] {text : Text}
    (all : text.all (fun c => decide (P c)) = true) : ∀ c ∈ text, P c := by
  simpa using all

/-- `%0<width>d`: the sign counts towards the width, longer values are not cut. -/
def zeroPad (width : Nat) (value : Int) : Text :=
  let digits := Nat.toDigits 10 value.natAbs
  if value < 0 then '-' :: (List.replicate (width - 1 - digits.length) '0' ++ digits)
  else List.replicate (width - digits.length) '0' ++ digits

def digitsValue (digits : Text) : Option Nat :=
  if digits ≠ [] ∧ digits.all Char.isDigit then some (Nat.ofDigitChars 10 digits 0) else none

/-- Java's checked signed readers; `bound` is the size of the negative range. -/
def parseSigned (bound : Nat) : Text → Option Int
  | '-' :: digits => (digitsValue digits).bind fun value =>
      if value ≤ bound then some (-(value : Int)) else none
  | '+' :: digits => (digitsValue digits).bind fun value =>
      if value < bound then some (value : Int) else none
  | digits => (digitsValue digits).bind fun value =>
      if value < bound then some (value : Int) else none

/-- `Integer.parseInt`; `none` is the NumberFormatException. -/
def parseInt (text : Text) : Option Int := parseSigned (2 ^ 31) text

def parseLong (text : Text) : Option Int := parseSigned (2 ^ 63) text

def isSpace (c : Char) : Bool :=
  c = ' ' || c = '\t' || c = '\n' || c = '\r' || c.toNat = 11 || c.toNat = 12

/-- The digits C's number readers consume; `none` when there are none. -/
def leadingDigits (text : Text) : Option Nat :=
  digitsValue (text.takeWhile Char.isDigit)

/-- The shared core of `atoi` and `stoi`: blanks, a sign, a run of digits. -/
def scanInt (text : Text) : Option Int :=
  match text.dropWhile isSpace with
  | '-' :: rest => (leadingDigits rest).map fun value => -(value : Int)
  | '+' :: rest => (leadingDigits rest).map fun value => (value : Int)
  | rest => (leadingDigits rest).map fun value => (value : Int)

/-- C's `atoi` of a number that an `int` holds: zero when no number starts the text. -/
def atoi (text : Text) : Int := (scanInt text).getD 0

/-- `String.substring(from, to)`; `none` is the index exception. -/
def substring (text : Text) (start stop : Int) : Option Text :=
  if 0 ≤ start ∧ start ≤ stop ∧ stop ≤ text.length then
    some ((text.drop start.toNat).take (stop - start).toNat)
  else none

def isTrimmed (c : Char) : Bool := c.toNat ≤ 32

/-- `String.trim`: drops characters up to the blank at both ends. -/
def trim (text : Text) : Text :=
  ((text.dropWhile isTrimmed).reverse.dropWhile isTrimmed).reverse

theorem substring_middle (before middle after : Text) (start stop : Int)
    (first : start = before.length) (last : stop = before.length + middle.length) :
    substring (before ++ (middle ++ after)) start stop = some middle := by
  subst first last
  have bounds : 0 ≤ (before.length : Int) ∧
      (before.length : Int) ≤ before.length + middle.length ∧
      (before.length : Int) + middle.length ≤ ((before ++ (middle ++ after)).length : Nat) := by
    simp only [List.length_append]
    omega
  have width : ((before.length : Int) + middle.length - before.length).toNat = middle.length := by
    omega
  rw [substring, if_pos bounds, width, Int.toNat_natCast, List.drop_left, List.take_left]

theorem zeroPad_length (width value : Nat) (fits : value < 10 ^ width) (wide : 0 < width) :
    (zeroPad width value).length = width := by
  have short := (Nat.length_toDigits_le_iff (b := 10) (n := value) (by decide) wide).mpr fits
  have notNegative : ¬ ((value : Int) < 0) := by omega
  simp only [zeroPad, notNegative, ↓reduceIte, List.length_append, List.length_replicate,
    Int.natAbs_natCast]
  omega

theorem zeroPad_chars (width : Nat) (value : Int) (c : Char) (member : c ∈ zeroPad width value) :
    c = '-' ∨ c.isDigit := by
  have tail : ∀ count, c ∈ List.replicate count '0' ++ Nat.toDigits 10 value.natAbs →
      c.isDigit := by
    intro count inside
    rcases List.mem_append.mp inside with zero | digit
    · rw [List.eq_of_mem_replicate zero]; rfl
    · exact Nat.isDigit_of_mem_toDigits (by decide) (by decide) digit
  rw [zeroPad] at member
  split at member
  · rcases List.mem_cons.mp member with minus | inside
    · exact .inl minus
    · exact .inr (tail _ inside)
  · exact .inr (tail _ member)

theorem zeroPad_width (width : Nat) (value : Int) : width ≤ (zeroPad width value).length := by
  by_cases negative : value < 0
  · simp only [zeroPad, if_pos negative, List.length_cons, List.length_append,
      List.length_replicate]
    omega
  · simp only [zeroPad, if_neg negative, List.length_append, List.length_replicate]
    omega

theorem zeroPad_length_iff (width : Nat) (value : Int) (wide : 1 < width) :
    (zeroPad width value).length = width ↔ -(10 ^ (width - 1) : Nat) < value ∧
      value < (10 ^ width : Nat) := by
  have positive := (Nat.length_toDigits_le_iff (b := 10) (n := value.natAbs) (by decide)
    (by omega : 0 < width))
  have signed := (Nat.length_toDigits_le_iff (b := 10) (n := value.natAbs) (by decide)
    (by omega : 0 < width - 1))
  have power : 0 < 10 ^ (width - 1) := Nat.pos_of_ne_zero (by positivity)
  have larger : 0 < 10 ^ width := Nat.pos_of_ne_zero (by positivity)
  by_cases negative : value < 0
  · simp only [zeroPad, if_pos negative, List.length_cons, List.length_append,
      List.length_replicate]
    omega
  · simp only [zeroPad, if_neg negative, List.length_append, List.length_replicate]
    omega

theorem zeroPad_digits (width value : Nat) : (zeroPad width value).all Char.isDigit := by
  have notNegative : ¬ ((value : Int) < 0) := by omega
  simp only [zeroPad, notNegative, ↓reduceIte, Int.natAbs_natCast, List.all_append,
    Bool.and_eq_true, List.all_eq_true]
  constructor
  · intro c member
    rw [List.eq_of_mem_replicate member]
    rfl
  · intro c member
    exact Nat.isDigit_of_mem_toDigits (by decide) (by decide) member

theorem zeroPad_value (width value : Nat) :
    Nat.ofDigitChars 10 (zeroPad width value) 0 = value := by
  have notNegative : ¬ ((value : Int) < 0) := by omega
  simp only [zeroPad, notNegative, ↓reduceIte, Int.natAbs_natCast, Nat.ofDigitChars_append,
    Nat.ofDigitChars_replicate_zero, Nat.mul_zero, Nat.ofDigitChars_ten_toDigits]

theorem zeroPad_nonempty (width value : Nat) : zeroPad width value ≠ [] := by
  have notNegative : ¬ ((value : Int) < 0) := by omega
  simp [zeroPad, notNegative]

theorem zeroPad_digitsValue (width value : Nat) :
    digitsValue (zeroPad width value) = some value := by
  unfold digitsValue
  rw [if_pos ⟨zeroPad_nonempty width value, zeroPad_digits width value⟩, zeroPad_value]

theorem digit_not_space (c : Char) (digit : c.isDigit) : isSpace c = false := by
  by_contra blank
  simp only [isSpace, Bool.not_eq_false, Bool.or_eq_true, decide_eq_true_eq] at blank
  rcases blank with ((((rfl | rfl) | rfl) | rfl) | vertical) | feed
  · exact absurd digit (by decide)
  · exact absurd digit (by decide)
  · exact absurd digit (by decide)
  · exact absurd digit (by decide)
  · have code : c = Char.ofNat 11 := by rw [← vertical, Char.ofNat_toNat]
    subst code; exact absurd digit (by decide)
  · have code : c = Char.ofNat 12 := by rw [← feed, Char.ofNat_toNat]
    subst code; exact absurd digit (by decide)

theorem dropWhile_none {α : Type} (items : List α) (drops : α → Bool)
    (none : ∀ x ∈ items, drops x = false) :
    items.dropWhile drops = items := by
  cases items with
  | nil => rfl
  | cons x rest =>
      have stop := none x List.mem_cons_self
      simp [stop]

theorem trim_none (text : Text) (none : ∀ c ∈ text, isTrimmed c = false) : trim text = text := by
  rw [trim, dropWhile_none text _ none, dropWhile_none _ _ (by simpa using none),
    List.reverse_reverse]

theorem digit_not_trimmed (c : Char) (digit : c.isDigit) : isTrimmed c = false := by
  simp only [Char.isDigit, Bool.and_eq_true, decide_eq_true_eq] at digit
  have low : 48 ≤ c.toNat := digit.1
  simp only [isTrimmed, decide_eq_false_iff_not]
  omega

theorem scanInt_digit (c : Char) (rest : Text) (digit : c.isDigit) :
    scanInt (c :: rest) = (leadingDigits (c :: rest)).map fun value => (value : Int) := by
  have notBlank := digit_not_space c digit
  have notMinus : c ≠ '-' := by rintro rfl; exact absurd digit (by decide)
  have notPlus : c ≠ '+' := by rintro rfl; exact absurd digit (by decide)
  unfold scanInt
  rw [List.dropWhile_cons_of_neg (by simp [notBlank])]
  split
  · next same => exact absurd (List.cons.inj same).1 notMinus
  · next same => exact absurd (List.cons.inj same).1 notPlus
  · rfl

theorem parseSigned_digit (bound : Nat) (c : Char) (rest : Text) (digit : c.isDigit) :
    parseSigned bound (c :: rest) = (digitsValue (c :: rest)).bind fun value =>
      if value < bound then some (value : Int) else none := by
  have notMinus : c ≠ '-' := by rintro rfl; exact absurd digit (by decide)
  have notPlus : c ≠ '+' := by rintro rfl; exact absurd digit (by decide)
  unfold parseSigned
  split
  · next same => exact absurd (List.cons.inj same).1 notMinus
  · next same => exact absurd (List.cons.inj same).1 notPlus
  · rfl

theorem zeroPad_negative (width : Nat) (value : Int) (negative : value < 0) :
    zeroPad width value = '-' :: zeroPad (width - 1) value.natAbs := by
  have notNegative : ¬ ((value.natAbs : Int) < 0) := by omega
  simp only [zeroPad, if_pos negative, if_neg notNegative, Int.natAbs_natCast]

theorem parseSigned_zeroPad (bound width : Nat) (value : Int) (low : -(bound : Int) ≤ value)
    (high : value < bound) : parseSigned bound (zeroPad width value) = some value := by
  by_cases negative : value < 0
  · rw [zeroPad_negative width value negative]
    simp only [parseSigned, zeroPad_digitsValue, Option.bind_some]
    rw [if_pos (by omega)]
    congr 1
    omega
  · obtain ⟨n, rfl⟩ := Int.eq_ofNat_of_zero_le (not_lt.mp negative)
    obtain ⟨c, rest, spelled⟩ := List.exists_cons_of_ne_nil (zeroPad_nonempty width n)
    have digit : c.isDigit := by
      have all := zeroPad_digits width n
      rw [spelled, List.all_cons, Bool.and_eq_true] at all
      exact all.1
    have small : n < bound := by omega
    rw [spelled, parseSigned_digit _ c rest digit, ← spelled, zeroPad_digitsValue,
      Option.bind_some, if_pos small]

theorem parseInt_zeroPad (width value : Nat) (small : value < 2 ^ 31) :
    parseInt (zeroPad width value) = some (value : Int) :=
  parseSigned_zeroPad (2 ^ 31) width value (by omega) (by exact_mod_cast small)

theorem atoi_digits (digits : Text) (value : Nat) (read : digitsValue digits = some value) :
    atoi digits = value := by
  simp only [digitsValue] at read
  split at read
  · next shape =>
    obtain ⟨nonempty, all⟩ := shape
    cases digits with
    | nil => exact absurd rfl nonempty
    | cons c rest =>
        have digit : c.isDigit := by
          exact List.all_eq_true.mp all c List.mem_cons_self
        have whole : (c :: rest).takeWhile Char.isDigit = c :: rest :=
          List.takeWhile_eq_self_iff.mpr (List.all_eq_true.mp all)
        simp only [atoi, scanInt_digit c rest digit, leadingDigits, whole, digitsValue]
        rw [if_pos ⟨nonempty, all⟩]
        simpa using read
  · simp at read

end LazyAS.WireText
