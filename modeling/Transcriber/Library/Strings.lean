import Transcriber.Library.JsonDumps

/-! Operations of Python on strings: character classes, bounded patterns, removal of a part, and
`int` with base 16.
-/

namespace Strings

open Json

-----------------------------------------------------------------------------------------
-- Characters
-----------------------------------------------------------------------------------------

/-- The blanks of `str.isspace`, of `strip` and of `\s`. -/
def whitespace : List Nat :=
  [9, 10, 11, 12, 13, 28, 29, 30, 31, 32, 0x85, 0xA0, 0x1680, 0x2000, 0x2001, 0x2002, 0x2003,
    0x2004, 0x2005, 0x2006, 0x2007, 0x2008, 0x2009, 0x200A, 0x2028, 0x2029, 0x202F, 0x205F,
    0x3000]

def isWhitespace (c : Nat) : Bool := whitespace.contains c

/-- Where the decimal digits of another script start. -/
def digitZeros : List Nat :=
  [0x660, 0x6F0, 0x7C0, 0x966, 0x9E6, 0xA66, 0xAE6, 0xB66, 0xBE6, 0xC66, 0xCE6, 0xD66, 0xDE6,
    0xE50, 0xED0, 0xF20, 0x1040, 0x1090, 0x17E0, 0x1810, 0x1946, 0x19D0, 0x1A80, 0x1A90, 0x1B50,
    0x1BB0, 0x1C40, 0x1C50, 0xA620, 0xA8D0, 0xA900, 0xA9D0, 0xA9F0, 0xAA50, 0xABF0, 0xFF10,
    0x104A0, 0x10D30, 0x11066, 0x110F0, 0x11136, 0x111D0, 0x112F0, 0x11450, 0x114D0, 0x11650,
    0x116C0, 0x11730, 0x118E0, 0x11950, 0x11C50, 0x11D50, 0x11DA0, 0x16A60, 0x16AC0, 0x16B50,
    0x1D7CE, 0x1D7D8, 0x1D7E2, 0x1D7EC, 0x1D7F6, 0x1E140, 0x1E2F0, 0x1E950, 0x1FBF0]

/-- The value of a decimal digit outside of ASCII. -/
def decimalValue (c : Nat) : Option Nat :=
  (digitZeros.find? (fun start => start ≤ c && c < start + 10)).map (c - ·)

/-- `[A-Za-z0-9]` -/
def isAlphanumeric (c : Nat) : Bool :=
  (65 ≤ c && c ≤ 90) || (97 ≤ c && c ≤ 122) || (48 ≤ c && c ≤ 57)

/-- `re.fullmatch` of one class of characters, repeated within bounds. -/
def fullmatch (within : Nat → Bool) (low high : Nat) (s : Text) : Bool :=
  low ≤ s.length && s.length ≤ high && s.all within

-----------------------------------------------------------------------------------------
-- Removing characters
-----------------------------------------------------------------------------------------

/-- `s.replace(part, "")`, of which some characters are still to be skipped. -/
def remove (part : Text) : Nat → Text → Text
  | _, [] => []
  | skip + 1, _ :: rest => remove part skip rest
  | 0, c :: rest =>
      if part.isPrefixOf (c :: rest) then
        remove part (part.length - 1) rest
      else
        c :: remove part 0 rest

/-- `s.strip(…)` of the characters of a class. -/
def strip (within : Nat → Bool) (s : Text) : Text :=
  ((s.dropWhile within).reverse.dropWhile within).reverse

theorem remove_absent {part s : Text} {first : Nat} (start : part.head? = some first)
    (absent : first ∉ s)
    : remove part 0 s = s := by
  induction s with
  | nil => rfl
  | cons c rest ih =>
      obtain ⟨other, later⟩ := not_or.mp (List.mem_cons.not.mp absent)
      have unmatched : ¬part.isPrefixOf (c :: rest) = true := by
        cases part with
        | nil => cases start
        | cons d part =>
            cases start
            simp [List.isPrefixOf, other]
      rw [remove, if_neg unmatched, ih later]

theorem dropWhile_none {within : Nat → Bool} {s : Text} (none : ∀ c ∈ s, within c = false)
    : s.dropWhile within = s := by
  cases s with
  | nil => rfl
  | cons c rest => rw [List.dropWhile_cons_of_neg (by simp [none c List.mem_cons_self])]

theorem strip_none {within : Nat → Bool} {s : Text} (none : ∀ c ∈ s, within c = false)
    : strip within s = s := by
  have reversed : ∀ c ∈ s.reverse, within c = false := by simpa using none
  rw [strip, dropWhile_none none, dropWhile_none reversed, List.reverse_reverse]

-----------------------------------------------------------------------------------------
-- Hexadecimal numbers
-----------------------------------------------------------------------------------------

/-- The string with ASCII for the blanks and the digits of all scripts; `?` ends it. -/
def toAscii : Text → Text
  | [] => []
  | c :: rest =>
      if c < 128 then
        c :: toAscii rest
      else if isWhitespace c then
        32 :: toAscii rest
      else
        match decimalValue c with
        | some digit => (48 + digit) :: toAscii rest
        | none => [63]

/-- The blanks of C. -/
def isBlank (c : Nat) : Bool := c = 32 || (9 ≤ c && c ≤ 13)

/-- Digits with single underscores between them, and what follows. -/
def readHex : Bool → Nat → Text → Option (Nat × Text)
  | underscore, n, [] => if underscore then none else some (n, [])
  | underscore, n, c :: rest =>
      if c = 95 then
        if underscore then none else readHex true n rest
      else
        match hexDigit c with
        | some digit => readHex false (16 * n + digit) rest
        | none => if underscore then none else some (n, c :: rest)

/-- The text after `0x` or `0X` and one underscore, where it starts so. -/
def dropBase : Text → Text
  | 48 :: x :: rest =>
      if x = 120 || x = 88 then
        if rest.head? = some 95 then rest.tail else rest
      else
        48 :: x :: rest
  | s => s

/-- `int(s, 16)`, where it raises no ValueError. -/
def int16 (s : Text) : Option Int :=
  let start := (toAscii s).dropWhile isBlank
  let negative := start.head? = some 45
  let digits := dropBase (if negative || start.head? = some 43 then start.tail else start)
  if (digits.head?.bind hexDigit).isNone then
    none
  else
    match readHex false 0 digits with
    | none => none
    | some (n, rest) =>
        if rest.dropWhile isBlank = [] then some (if negative then -n else n) else none

/-- A lowercase hexadecimal digit. -/
def isHex (c : Nat) : Bool := (48 ≤ c && c ≤ 57) || (97 ≤ c && c ≤ 102)

/-- The value of hexadecimal digits. -/
def ofHex (digits : Text) : Nat := digits.foldl (fun n c => 16 * n + (hexDigit c).getD 0) 0

/-- `%0wx`: the last digits of a number. -/
def hexDigits : Nat → Nat → Text
  | 0, _ => []
  | width + 1, n => hexDigits width (n / 16) ++ [hexChar (n % 16)]

theorem isHex_cases {c : Nat} (hex : isHex c = true)
    : (48 ≤ c ∧ c ≤ 57 ∧ hexDigit c = some (c - 48))
      ∨ (97 ≤ c ∧ c ≤ 102 ∧ hexDigit c = some (c - 87)) := by
  simp only [isHex, Bool.or_eq_true, Bool.and_eq_true, decide_eq_true_eq] at hex
  rcases hex with ⟨low, high⟩ | ⟨low, high⟩
  · exact .inl ⟨low, high, by simp [hexDigit, low, high]⟩
  · refine .inr ⟨low, high, ?_⟩
    have letter : ¬c ≤ 57 := by omega
    simp [hexDigit, low, high, letter]

theorem hexChar_hex {digit : Nat} (small : digit < 16) : isHex (hexChar digit) = true := by
  unfold hexChar
  split
  all_goals
    simp only [isHex, Bool.or_eq_true, Bool.and_eq_true, decide_eq_true_eq]
    omega

theorem hexChar_hexDigit {c : Nat} (hex : isHex c = true)
    : ∃ digit, hexDigit c = some digit ∧ digit < 16 ∧ hexChar digit = c := by
  rcases isHex_cases hex with ⟨low, high, value⟩ | ⟨low, high, value⟩
  · refine ⟨_, value, by omega, ?_⟩
    rw [hexChar, if_pos (by omega)]
    omega
  · refine ⟨_, value, by omega, ?_⟩
    rw [hexChar, if_neg (by omega)]
    omega

theorem length_hexDigits (width n : Nat) : (hexDigits width n).length = width := by
  induction width generalizing n with
  | zero => rfl
  | succ width ih => rw [hexDigits, List.length_append, ih, List.length_singleton]

theorem hexDigits_hex (width n : Nat) : ∀ c ∈ hexDigits width n, isHex c = true := by
  induction width generalizing n with
  | zero => simp [hexDigits]
  | succ width ih =>
      intro c member
      rcases List.mem_append.mp member with before | last
      · exact ih _ c before
      · rw [List.mem_singleton.mp last]
        exact hexChar_hex (Nat.mod_lt _ (by omega))

theorem ofHex_append (digits : Text) (c : Nat)
    : ofHex (digits ++ [c]) = 16 * ofHex digits + (hexDigit c).getD 0 := by
  rw [ofHex, List.foldl_append]
  rfl

/-- The digits of a number are those it was read from, by induction from the last one. -/
theorem hexDigits_ofHex {digits : Text} (hex : ∀ c ∈ digits, isHex c = true)
    : hexDigits digits.length (ofHex digits) = digits
      ∧ ofHex digits < 16 ^ digits.length := by
  induction digits using List.reverseRecOn with
  | nil => exact ⟨rfl, by simp [ofHex]⟩
  | append_singleton digits c ih =>
      obtain ⟨same, bound⟩ := ih (fun d member => hex d (List.mem_append_left _ member))
      obtain ⟨digit, value, small, char⟩ := hexChar_hexDigit (hex c (by simp))
      rw [ofHex_append, value, Option.getD_some, List.length_append, List.length_singleton,
        hexDigits, Nat.pow_succ]
      have quotient : (16 * ofHex digits + digit) / 16 = ofHex digits := by omega
      have remainder : (16 * ofHex digits + digit) % 16 = digit := by omega
      rw [quotient, remainder, same, char]
      exact ⟨rfl, by omega⟩

theorem toAscii_hex {digits : Text} (hex : ∀ c ∈ digits, isHex c = true)
    : toAscii digits = digits := by
  induction digits with
  | nil => rfl
  | cons c rest ih =>
      have left := ih (fun d member => hex d (List.mem_cons_of_mem _ member))
      have small : c < 128 := by
        rcases isHex_cases (hex c List.mem_cons_self) with ⟨_, _, _⟩ | ⟨_, _, _⟩ <;> omega
      rw [toAscii, if_pos small, left]

theorem readHex_hex {digits : Text} (hex : ∀ c ∈ digits, isHex c = true) (n : Nat)
    : readHex false n digits
      = some (digits.foldl (fun n c => 16 * n + (hexDigit c).getD 0) n, []) := by
  induction digits generalizing n with
  | nil => rfl
  | cons c rest ih =>
      obtain ⟨digit, value, _, _⟩ := hexChar_hexDigit (hex c List.mem_cons_self)
      have other : c ≠ 95 := by
        rcases isHex_cases (hex c List.mem_cons_self) with ⟨_, _, _⟩ | ⟨_, _, _⟩ <;> omega
      rw [readHex, if_neg other, value, List.foldl_cons, value]
      exact ih (fun d member => hex d (List.mem_cons_of_mem _ member)) _

theorem dropBase_hex {digits : Text} (hex : ∀ c ∈ digits, isHex c = true)
    : dropBase digits = digits := by
  unfold dropBase
  split
  · rename_i x rest
    have second := isHex_cases (hex x (by simp))
    have other : ¬(x = 120 || x = 88) = true := by
      simp only [Bool.or_eq_true, decide_eq_true_eq]
      omega
    rw [if_neg other]
  · rfl

/-- `int` reads lowercase digits. -/
theorem int16_hex {digits : Text} (hex : ∀ c ∈ digits, isHex c = true) (some : digits ≠ [])
    : int16 digits = .some (ofHex digits : Int) := by
  obtain ⟨c, rest, rfl⟩ := List.exists_cons_of_ne_nil some
  have first := isHex_cases (hex c List.mem_cons_self)
  have solid : isBlank c = false := by
    simp only [isBlank, Bool.or_eq_false_iff, Bool.and_eq_false_iff, decide_eq_false_iff_not]
    omega
  have unsigned : c ≠ 45 ∧ c ≠ 43 := by omega
  obtain ⟨digit, value, _, _⟩ := hexChar_hexDigit (hex c List.mem_cons_self)
  unfold int16
  simp only [toAscii_hex hex, List.dropWhile_cons_of_neg (by simp [solid] : ¬isBlank c = true),
    List.head?_cons, Option.some.injEq, unsigned, decide_false, Bool.or_self, if_false,
    Bool.false_eq_true, dropBase_hex hex, Option.bind_some, value, readHex_hex hex]
  simp [ofHex]

-----------------------------------------------------------------------------------------
-- Base64
-----------------------------------------------------------------------------------------

/-- The alphabet for URLs. -/
def base64Char (sextet : Nat) : Nat :=
  if sextet < 26 then
    65 + sextet
  else if sextet < 52 then
    71 + sextet
  else if sextet < 62 then
    sextet - 4
  else if sextet = 62 then
    45
  else
    95

/-- `base64.urlsafe_b64encode(bytes).rstrip(b"=")` -/
def urlsafeBase64 : List UInt8 → Text
  | [] => []
  | [a] => [base64Char (a.toNat / 4), base64Char (a.toNat % 4 * 16)]
  | [a, b] =>
      [base64Char (a.toNat / 4), base64Char (a.toNat % 4 * 16 + b.toNat / 16),
        base64Char (b.toNat % 16 * 4)]
  | a :: b :: c :: rest =>
      [base64Char (a.toNat / 4), base64Char (a.toNat % 4 * 16 + b.toNat / 16),
        base64Char (b.toNat % 16 * 4 + c.toNat / 64), base64Char (c.toNat % 64)]
      ++ urlsafeBase64 rest

theorem base64Char_safe {sextet : Nat} (small : sextet < 64)
    : isAlphanumeric (base64Char sextet) = true ∨ base64Char sextet = 45
      ∨ base64Char sextet = 95 := by
  unfold base64Char
  split_ifs
  · simp only [isAlphanumeric, Bool.or_eq_true, Bool.and_eq_true, decide_eq_true_eq]
    omega
  · simp only [isAlphanumeric, Bool.or_eq_true, Bool.and_eq_true, decide_eq_true_eq]
    omega
  · simp only [isAlphanumeric, Bool.or_eq_true, Bool.and_eq_true, decide_eq_true_eq]
    omega
  · exact .inr (.inl rfl)
  · exact .inr (.inr rfl)

/-- The characters of the encoding, by induction on groups of three bytes. -/
theorem urlsafeBase64_safe (bytes : List UInt8)
    : ∀ c ∈ urlsafeBase64 bytes, isAlphanumeric c = true ∨ c = 45 ∨ c = 95 := by
  induction bytes using urlsafeBase64.induct with
  | case1 => simp [urlsafeBase64]
  | case2 a =>
      intro c member
      have bound := a.toNat_lt
      simp only [urlsafeBase64, List.mem_cons, List.not_mem_nil, or_false] at member
      rcases member with rfl | rfl <;> exact base64Char_safe (by omega)
  | case3 a b =>
      intro c member
      have bound := a.toNat_lt
      have next := b.toNat_lt
      simp only [urlsafeBase64, List.mem_cons, List.not_mem_nil, or_false] at member
      rcases member with rfl | rfl | rfl <;> exact base64Char_safe (by omega)
  | case4 a b c rest ih =>
      intro d member
      have bound := a.toNat_lt
      have next := b.toNat_lt
      have last := c.toNat_lt
      rw [urlsafeBase64, List.mem_append] at member
      rcases member with group | later
      · simp only [List.mem_cons, List.not_mem_nil, or_false] at group
        rcases group with rfl | rfl | rfl | rfl <;> exact base64Char_safe (by omega)
      · exact ih d later

theorem urlsafeBase64_length (bytes : List UInt8)
    : (urlsafeBase64 bytes).length = (bytes.length * 4 + 2) / 3 := by
  induction bytes using urlsafeBase64.induct with
  | case1 => rfl
  | case2 a => simp [urlsafeBase64]
  | case3 a b => simp [urlsafeBase64]
  | case4 a b c rest ih =>
      simp only [urlsafeBase64, List.length_append, List.length_cons, List.length_nil, ih]
      omega

end Strings
