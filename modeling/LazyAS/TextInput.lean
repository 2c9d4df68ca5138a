import LazyAS.CommandCodec

/-! What a C program takes from a stream of text: the buffers `fgets` fills one after another, the
C string in a buffer, and what a call of `sscanf` with `%u` and `%x` assigns. -/
namespace LazyAS.TextInput
open WireText
open CommandCodec (isHex hexNumber)

/-! Lines. -/

/-- The buffers that calls of `fgets` leave, each with up to `room` characters; `held` is what the
call under way has stored. -/
def fgetsAll (room : Nat) (held : Text) : Text → List Text
  | [] => if held = [] then [] else [held]
  | c :: rest =>
      if c = '\n' ∨ held.length + 1 = room then (held ++ [c]) :: fgetsAll room [] rest
      else fgetsAll room (held ++ [c]) rest

theorem fgetsAll_line (room : Nat) (held line rest : Text) (single : ∀ c ∈ line, c ≠ '\n')
    (fits : held.length + line.length < room) :
    fgetsAll room held (line ++ '\n' :: rest) = (held ++ (line ++ ['\n'])) ::
      fgetsAll room [] rest := by
  induction line generalizing held with
  | nil => simp [fgetsAll]
  | cons c line ih =>
      have here : c ≠ '\n' := single c List.mem_cons_self
      simp only [List.length_cons] at fits
      have step : ¬ (c = '\n' ∨ held.length + 1 = room) := by
        rintro (last | full)
        · exact here last
        · omega
      have further := ih (held ++ [c]) (fun d member => single d (List.mem_cons_of_mem _ member))
          (by
        simp only [List.length_append, List.length_cons, List.length_nil]
        omega)
      rw [List.cons_append, fgetsAll, if_neg step, further]
      simp

theorem fgetsAll_lines (room : Nat) (lines : List Text)
    (single : ∀ line ∈ lines, ∀ c ∈ line, c ≠ '\n') (fit : ∀ line ∈ lines, line.length < room) :
    fgetsAll room [] (lines.flatMap (· ++ ['\n'])) = lines.map (· ++ ['\n']) := by
  induction lines with
  | nil => rfl
  | cons line lines ih =>
      have first := fgetsAll_line room [] line (lines.flatMap (· ++ ['\n']))
          (single line List.mem_cons_self) (by
        have short := fit line List.mem_cons_self
        simpa using short)
      have others := ih (fun other member => single other (List.mem_cons_of_mem _ member))
        (fun other member => fit other (List.mem_cons_of_mem _ member))
      rw [List.flatMap_cons, List.append_assoc, List.singleton_append, first, others]
      rfl

def cString (buffer : Text) : Text := buffer.takeWhile (· ≠ nul)

def startsWith (word buffer : Text) : Bool := word.isPrefixOf (cString buffer)

theorem cString_plain (buffer : Text) (plain : ∀ c ∈ buffer, c ≠ nul) :
    cString buffer = buffer := by
  apply List.takeWhile_eq_self_iff.mpr
  intro c member
  simpa using plain c member

/-! `sscanf`. -/

/-- How an unsigned conversion stores a number, with whether a minus stands before it. -/
abbrev Convert := Bool → Nat → UInt32

/-- What the C standard promises: a number that the type can hold is stored as it is. -/
def Convert.Exact (convert : Convert) : Prop :=
  ∀ value < 2 ^ 32, convert false value = UInt32.ofNat value

inductive Directive where
  | blank
  | character (c : Char)
  | unsigned
  | hexadecimal

def literal (word : String) : List Directive := word.toList.map .character

def takeSign (text : Text) : Bool × Text :=
  match text with
  | '-' :: rest => (true, rest)
  | '+' :: rest => (false, rest)
  | _ => (false, text)

/-- A number as long as its digits go; `none` is the matching failure. -/
def takeDigits (digit : Char → Bool) (value : Text → Nat) (convert : Convert) (negative : Bool)
    (text : Text) :
    Option (UInt32 × Text) :=
  let digits := text.takeWhile digit
  if digits = [] then none else some (convert negative (value digits), text.dropWhile digit)

def takeUnsigned (convert : Convert) (text : Text) : Option (UInt32 × Text) :=
  let (negative, digits) := takeSign (text.dropWhile isSpace)
  takeDigits Char.isDigit (Nat.ofDigitChars 10 · 0) convert negative digits

def takeHexadecimal (convert : Convert) (text : Text) : Option (UInt32 × Text) :=
  let (negative, digits) := takeSign (text.dropWhile isSpace)
  match digits with
  | '0' :: x :: rest =>
      if x = 'x' ∨ x = 'X' then takeDigits isHex hexNumber convert negative rest
      else takeDigits isHex hexNumber convert negative digits
  | _ => takeDigits isHex hexNumber convert negative digits

/-- The numbers that a call of `sscanf` assigns until its first failure. -/
def sscanf (convert : Convert) : List Directive → Text → List UInt32
  | [], _ => []
  | .blank :: format, text => sscanf convert format (text.dropWhile isSpace)
  | .character c :: format, text =>
      match text with
      | d :: rest => if d = c then sscanf convert format rest else []
      | [] => []
  | .unsigned :: format, text =>
      match takeUnsigned convert text with
      | some (value, rest) => value :: sscanf convert format rest
      | none => []
  | .hexadecimal :: format, text =>
      match takeHexadecimal convert text with
      | some (value, rest) => value :: sscanf convert format rest
      | none => []

section
variable (convert : Convert)

theorem sscanf_characters (word : List Char) (format : List Directive) (rest : Text) :
    sscanf convert (word.map Directive.character ++ format) (word ++ rest) =
      sscanf convert format rest := by
  induction word with
  | nil => rfl
  | cons c word ih =>
      rw [List.map_cons, List.cons_append, List.cons_append, sscanf, if_pos rfl]
      exact ih

theorem sscanf_literal (word : String) (format : List Directive) (rest : Text) :
    sscanf convert (literal word ++ format) (word.toList ++ rest) = sscanf convert format rest :=
  sscanf_characters convert word.toList format rest

theorem sscanf_blank (format : List Directive) (blanks rest : Text)
    (blank : ∀ c ∈ blanks, isSpace c) (solid : ∀ c ∈ rest.head?, isSpace c = false) :
    sscanf convert (.blank :: format) (blanks ++ rest) = sscanf convert format rest := by
  have stop : rest.dropWhile isSpace = rest := by
    cases rest with
    | nil => rfl
    | cons c rest => exact List.dropWhile_cons_of_neg (by simp [solid c rfl])
  rw [sscanf, List.dropWhile_append_of_pos blank, stop]

theorem takeSign_plain (c : Char) (rest : Text) (minus : c ≠ '-') (plus : c ≠ '+') :
    takeSign (c :: rest) = (false, c :: rest) := by
  unfold takeSign
  split
  · next same => exact absurd (List.cons.inj same).1 minus
  · next same => exact absurd (List.cons.inj same).1 plus
  · rfl

theorem takeDigits_whole (digit : Char → Bool) (value : Text → Nat) (digits rest : Text)
    (some' : digits ≠ []) (all : ∀ c ∈ digits, digit c) (ends : ∀ c ∈ rest.head?, digit c = false) :
    takeDigits digit value convert false (digits ++ rest) =
      some (convert false (value digits), rest) := by
  have none' : rest.takeWhile digit = [] ∧ rest.dropWhile digit = rest := by
    cases rest with
    | nil => exact ⟨rfl, rfl⟩
    | cons c rest => simp [ends c rfl]
  have taken : (digits ++ rest).takeWhile digit = digits := by
    rw [List.takeWhile_append_of_pos all, none'.1, List.append_nil]
  have left : (digits ++ rest).dropWhile digit = rest := by
    rw [List.dropWhile_append_of_pos all, none'.2]
  unfold takeDigits
  rw [taken, left, if_neg some']

theorem takeUnsigned_printed (exact' : convert.Exact) (blanks rest : Text)
    (blank : ∀ c ∈ blanks, isSpace c) (value : UInt32)
    (ends : ∀ c ∈ rest.head?, c.isDigit = false) :
    takeUnsigned convert (blanks ++ (zeroPad 0 value.toNat ++ rest)) = some (value, rest) := by
  -- a printed decimal is read back, behind any blanks
  have all := List.all_eq_true.mp (zeroPad_digits 0 value.toNat)
  obtain ⟨c, digits, spelled⟩ := List.exists_cons_of_ne_nil (zeroPad_nonempty 0 value.toNat)
  have digit : c.isDigit := all c (by rw [spelled]; exact List.mem_cons_self)
  have minus : c ≠ '-' := by
    rintro rfl
    exact absurd digit (by decide)
  have plus : c ≠ '+' := by
    rintro rfl
    exact absurd digit (by decide)
  have start : (blanks ++ (zeroPad 0 value.toNat ++ rest)).dropWhile isSpace =
      zeroPad 0 value.toNat ++ rest := by
    rw [List.dropWhile_append_of_pos blank, spelled, List.cons_append,
      List.dropWhile_cons_of_neg (by simp [digit_not_space c digit])]
  have unsigned : takeSign (zeroPad 0 value.toNat ++ rest) =
      (false, zeroPad 0 value.toNat ++ rest) := by
    rw [spelled, List.cons_append]
    exact takeSign_plain c _ minus plus
  have stored : convert false value.toNat = value := by
    rw [exact' value.toNat value.toNat_lt, UInt32.ofNat_toNat]
  unfold takeUnsigned
  rw [start, unsigned]
  simp only
  rw [takeDigits_whole convert _ _ _ _ (zeroPad_nonempty 0 value.toNat) all ends,
    zeroPad_value, stored]

theorem takeHexadecimal_pair (exact' : convert.Exact) (a b : Char) (rest : Text) (first : isHex a)
    (second : isHex b) (small : hexNumber [a, b] < 2 ^ 32)
    (ends : ∀ c ∈ rest.head?, isHex c = false) :
    takeHexadecimal convert (a :: b :: rest) = some (UInt32.ofNat (hexNumber [a, b]), rest) := by
  obtain ⟨solid, minus, plus⟩ := CommandCodec.hex_plain a first
  have start : (a :: b :: rest).dropWhile isSpace = a :: b :: rest :=
    List.dropWhile_cons_of_neg (by simp [solid])
  have lower : b ≠ 'x' := by
    rintro rfl
    exact absurd second (by decide)
  have upper : b ≠ 'X' := by
    rintro rfl
    exact absurd second (by decide)
  have both : ∀ c ∈ [a, b], isHex c := by simp [first, second]
  have taken := takeDigits_whole convert isHex hexNumber [a, b] rest (by simp) both ends
  rw [exact' _ small] at taken
  unfold takeHexadecimal
  rw [start, takeSign_plain a _ minus plus]
  simp only
  split
  · next x tail same =>
      rw [if_neg (by
        have second' : b = x := (List.cons.inj (List.cons.inj same).2).1
        rw [← second']
        simp [lower, upper])]
      exact taken
  · exact taken

end

end LazyAS.TextInput
