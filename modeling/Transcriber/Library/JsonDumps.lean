import Mathlib.Data.Nat.Digits.Lemmas
import Transcriber.Library.Json

/-! Flat objects as `json.dumps` writes them, and that `json.loads` reads them back.
-/

namespace Json

-----------------------------------------------------------------------------------------
-- Writing
-----------------------------------------------------------------------------------------

/-- A value without others in it. -/
inductive Scalar
  | bool (value : Bool)
  | int (value : Int)
  | str (value : Text)
  deriving DecidableEq, Repr

def Scalar.value : Scalar → Value
  | .bool value => .bool value
  | .int value => .int value
  | .str value => .str value

def hexChar (digit : Nat) : Nat := if digit < 10 then 48 + digit else 87 + digit

/-- A code unit as `\u` and four digits. -/
def escapeUnit (unit : Nat) : Text :=
  [92, 117, hexChar (unit / 4096), hexChar (unit / 256 % 16), hexChar (unit / 16 % 16),
    hexChar (unit % 16)]

/-- A character of a string, with `ensure_ascii`. -/
def escape (c : Nat) : Text :=
  if c = 34 || c = 92 then
    [92, c]
  else if c = 10 then
    [92, 110]
  else if c = 13 then
    [92, 114]
  else if c = 9 then
    [92, 116]
  else if c = 12 then
    [92, 102]
  else if c = 8 then
    [92, 98]
  else if 32 ≤ c && c ≤ 126 then
    [c]
  else if c < 0x10000 then
    escapeUnit c
  else
    escapeUnit (0xD800 + (c - 0x10000) / 1024) ++ escapeUnit (0xDC00 + (c - 0x10000) % 1024)

def dumpsString (s : Text) : Text := 34 :: s.flatMap escape ++ [34]

/-- The decimal digits of a number. -/
def decimal (n : Nat) : Text :=
  if n = 0 then [48] else (Nat.digits 10 n).reverse.map (48 + ·)

/-- An integer, or ValueError where it has too many digits. -/
def dumpsInt (n : Int) : Option Text :=
  if maxDigits < (decimal n.natAbs).length then
    none
  else
    some ((if n < 0 then [45] else []) ++ decimal n.natAbs)

def Scalar.dumps : Scalar → Option Text
  | .bool value => some (text (if value then "true" else "false"))
  | .int value => dumpsInt value
  | .str value => some (dumpsString value)

/-- `"key": value` -/
def dumpsMember (entry : Text × Scalar) : Option Text :=
  entry.2.dumps.map (fun written => dumpsString entry.1 ++ [58, 32] ++ written)

/-- The members of an object, separated by a comma and a blank. -/
def dumpsMembers : List (Text × Scalar) → Option Text
  | [] => some []
  | entry :: rest => do
      let first ← dumpsMember entry
      let more ← dumpsMembers rest
      return if rest = [] then first else first ++ [44, 32] ++ more

/-- `json.dumps` of a dictionary of scalars. -/
def dumps (entries : List (Text × Scalar)) : Option Text :=
  (dumpsMembers entries).map (fun written => 123 :: written ++ [125])

/-- The bytes of an ASCII text, as `encode` and `write_text` give them. -/
def encode (s : Text) : List UInt8 := s.map UInt8.ofNat

-----------------------------------------------------------------------------------------
-- Reading strings
-----------------------------------------------------------------------------------------

/-- A printable ASCII character that needs no escape. -/
def isPlain (c : Nat) : Bool := 32 ≤ c && c ≤ 126 && c ≠ 34 && c ≠ 92

/-- A string of such characters. -/
def Plain (s : Text) : Prop := ∀ c ∈ s, isPlain c = true

instance (s : Text) : Decidable (Plain s) := inferInstanceAs (Decidable (∀ c ∈ s, _))

variable {s rest : Text} {limit : Nat}

theorem escape_plain {c : Nat} (plain : isPlain c = true) : escape c = [c] := by
  simp only [isPlain, Bool.and_eq_true, decide_eq_true_eq] at plain
  obtain ⟨⟨⟨low, high⟩, quote⟩, backslash⟩ := plain
  unfold escape
  have controls : c ≠ 10 ∧ c ≠ 13 ∧ c ≠ 9 ∧ c ≠ 12 ∧ c ≠ 8 := by omega
  simp [quote, backslash, controls, low, high]

theorem dumpsString_plain (plain : Plain s) : dumpsString s = 34 :: s ++ [34] := by
  have same : s.flatMap escape = s := by
    induction s with
    | nil => rfl
    | cons c rest ih =>
        rw [List.flatMap_cons, escape_plain (plain c List.mem_cons_self),
          ih (fun c member => plain c (List.mem_cons_of_mem _ member))]
        rfl
  rw [dumpsString, same]

theorem dumpsString_length (plain : Plain s)
    : (dumpsString s).length = s.length + 2 := by
  rw [dumpsString_plain plain]
  simp

/-- A plain string is read up to its closing quote, by induction on it. -/
theorem scanUnits_plain (plain : Plain s)
    : scanUnits (s ++ 34 :: rest) = some (s.map (false, ·), rest) := by
  induction s with
  | nil => rw [List.nil_append, scanUnits.eq_def]; rfl
  | cons c after ih =>
      have first := plain c List.mem_cons_self
      simp only [isPlain, Bool.and_eq_true, decide_eq_true_eq] at first
      obtain ⟨⟨⟨low, high⟩, quote⟩, backslash⟩ := first
      have printed : ¬c < 32 := by omega
      have left := ih (fun c member => plain c (List.mem_cons_of_mem _ member))
      rw [List.cons_append, scanUnits.eq_def]
      simp [quote, backslash, printed, left]

/-- Units that no escape has given are the text. -/
theorem join_plain (s : Text) : join (s.map (false, ·)) = s := by
  induction s with
  | nil => rfl
  | cons c rest ih =>
      rw [List.map_cons, join, ih]
      cases rest <;> rfl

theorem scanString_plain (plain : Plain s) (rest : Text)
    : scanString (s ++ 34 :: rest) = some (s, rest) := by
  rw [scanString, scanUnits_plain plain]
  simp [join_plain]

-----------------------------------------------------------------------------------------
-- Reading numbers
-----------------------------------------------------------------------------------------

/-- What follows a value in an object. -/
def Ends (rest : Text) : Prop := ∃ c after, rest = c :: after ∧ (c = 44 ∨ c = 125)

theorem decimal_digits (n : Nat) : ∀ c ∈ decimal n, isDigit c = true := by
  intro c member
  unfold decimal at member
  split at member
  · rw [List.mem_singleton.mp member]
    rfl
  · obtain ⟨digit, listed, rfl⟩ := List.mem_map.mp member
    have small := Nat.digits_lt_base (by decide : 1 < 10) (List.mem_reverse.mp listed)
    simp only [isDigit, Bool.and_eq_true, decide_eq_true_eq]
    omega

theorem decimal_ne_nil (n : Nat) : decimal n ≠ [] := by
  unfold decimal
  split
  · simp
  · rename_i positive
    simpa [Nat.digits_ne_nil_iff_ne_zero] using positive

/-- Only zero has a leading zero. -/
theorem decimal_leading {n : Nat} (zero : (decimal n).head? = some 48) : decimal n = [48] := by
  unfold decimal at zero ⊢
  split at zero
  · rename_i none
    rw [if_pos none]
  · rename_i positive
    have last := Nat.getLast_digit_ne_zero 10 positive
    rw [List.head?_map, List.head?_reverse,
      List.getLast?_eq_some_getLast (Nat.digits_ne_nil_iff_ne_zero.mpr positive)] at zero
    simp only [Option.map_some, Option.some.injEq] at zero
    exact absurd (by omega) last

/-- The digits are those of the number. -/
theorem ofDigits_decimal (n : Nat) : ofDigits (decimal n) = n := by
  unfold decimal
  split
  · rename_i zero
    rw [zero]
    rfl
  · have folded : ∀ digits : List Nat,
        ofDigits (digits.reverse.map (48 + ·)) = Nat.ofDigits 10 digits := by
      intro digits
      rw [ofDigits, List.foldl_map, List.foldl_reverse, Nat.ofDigits_eq_foldr]
      congr 1
      funext digit value
      simp only [Nat.cast_id]
      omega
    rw [folded, Nat.ofDigits_digits]

theorem takeWhile_digits {digits : Text} (all : ∀ c ∈ digits, isDigit c = true)
    (ends : Ends rest)
    : (digits ++ rest).takeWhile isDigit = digits := by
  obtain ⟨c, after, rfl, stop⟩ := ends
  rw [List.takeWhile_append_of_pos all, List.takeWhile_cons_of_neg, List.append_nil]
  rcases stop with rfl | rfl <;> simp [isDigit]

/-- The digits of a number are read up to the end of the value. -/
theorem integerDigits_decimal (n : Nat) (ends : Ends rest)
    : integerDigits (decimal n ++ rest) = decimal n := by
  unfold integerDigits
  split
  · rename_i zero
    rw [List.head?_append_of_ne_nil _ (decimal_ne_nil n)] at zero
    exact (decimal_leading zero).symm
  · exact takeWhile_digits (decimal_digits n) ends

theorem fraction_ends (ends : Ends rest) : fraction rest = ([], rest) := by
  obtain ⟨c, after, rfl, rfl | rfl⟩ := ends <;> rfl

theorem exponent_ends (ends : Ends rest) : exponent rest = ([], rest) := by
  obtain ⟨c, after, rfl, rfl | rfl⟩ := ends <;> simp [exponent]

theorem sign_decimal (n : Nat) (rest : Text) : sign (decimal n ++ rest) = [] := by
  unfold sign
  split
  · rename_i minus
    rw [List.head?_append_of_ne_nil _ (decimal_ne_nil n)] at minus
    have digit := decimal_digits n 45 (List.mem_of_mem_head? minus)
    simp [isDigit] at digit
  · rfl

/-- An integer that `str` writes is read back. -/
theorem number_dumpsInt {n : Int} {written : Text} (wrote : dumpsInt n = some written)
    (ends : Ends rest)
    : number (written ++ rest) = .ok (.int n, rest) := by
  unfold dumpsInt at wrote
  split at wrote
  · cases wrote
  · rename_i short
    cases wrote
    have digits := integerDigits_decimal n.natAbs ends
    unfold number
    by_cases negative : n < 0
    · have minus : sign (45 :: (decimal n.natAbs ++ rest)) = [45] := rfl
      simp only [negative, if_true, List.cons_append, List.nil_append, minus,
        List.length_singleton, List.drop_one, List.tail_cons, digits, List.drop_left,
        fraction_ends ends, exponent_ends ends, decimal_ne_nil, if_false, short]
      simp only [ofDigits_decimal]
      have value : -(n.natAbs : Int) = n := by omega
      simp [value, -Nat.cast_natAbs]
    · simp only [negative, if_false, List.nil_append, sign_decimal, List.length_nil,
        List.drop_zero, digits, List.drop_left, fraction_ends ends, exponent_ends ends,
        decimal_ne_nil, short]
      simp only [ofDigits_decimal]
      have value : (n.natAbs : Int) = n := by omega
      simp [value, -Nat.cast_natAbs]

-----------------------------------------------------------------------------------------
-- Reading objects
-----------------------------------------------------------------------------------------

/-- How the constants start. -/
theorem constants_start
    : ∀ constant ∈ constants,
        constant.1.take 2
          ∈ ([[110, 117], [116, 114], [102, 97], [78, 97], [73, 110], [45, 73]] : List Text) := by
  decide +kernel

/-- A text that starts like no constant is a number. -/
theorem scalar_number
    (start
      : s.take 2
          ∉ ([[110, 117], [116, 114], [102, 97], [78, 97], [73, 110], [45, 73]] : List Text))
    : scalar s = number s := by
  have none : constants.find? (fun constant => constant.1.isPrefixOf s) = none := by
    rw [List.find?_eq_none]
    intro constant member matched
    apply start
    have listed := constants_start constant member
    obtain ⟨after, rfl⟩ := List.isPrefixOf_iff_prefix.mp matched
    have long : 2 ≤ constant.1.length := by
      by_contra short
      rw [List.take_of_length_le (by omega)] at listed
      simp only [List.mem_cons, List.not_mem_nil, or_false] at listed
      rcases listed with same | same | same | same | same | same <;> simp [same] at short
    rwa [List.take_append_of_le_length long]
  rw [scalar, none]

/-- A scalar that can be written and read back. -/
def Scalar.Plain : Scalar → Prop
  | .str value => Json.Plain value
  | .bool _ | .int _ => True

theorem dumpsInt_length {n : Int} {written : Text} (wrote : dumpsInt n = some written)
    : written.length ≤ maxDigits + 1 := by
  unfold dumpsInt at wrote
  split at wrote
  · cases wrote
  · cases wrote
    rw [List.length_append]
    split <;> simp <;> omega

/-- The digits of an integer start no constant, nor does a minus sign before them. -/
theorem dumpsInt_start {n : Int} {written : Text} (wrote : dumpsInt n = some written)
    : (∃ digit after, isDigit digit = true ∧ written = digit :: after)
      ∨ ∃ digit after, isDigit digit = true ∧ written = 45 :: digit :: after := by
  obtain ⟨digit, after, digits⟩ := List.exists_cons_of_ne_nil (decimal_ne_nil n.natAbs)
  have first := decimal_digits n.natAbs digit (by rw [digits]; exact List.mem_cons_self)
  unfold dumpsInt at wrote
  split at wrote
  · cases wrote
  · cases wrote
    rw [digits]
    by_cases negative : n < 0
    · exact .inr ⟨digit, after, first, by simp [negative]⟩
    · exact .inl ⟨digit, after, first, by simp [negative]⟩

theorem scalar_int {n : Int} {written : Text} (wrote : dumpsInt n = some written)
    (ends : Ends rest)
    : scalar (written ++ rest) = .ok (.int n, rest) := by
  rw [scalar_number, number_dumpsInt wrote ends]
  rcases dumpsInt_start wrote with ⟨digit, after, first, rfl⟩ | ⟨digit, after, first, rfl⟩
  all_goals
    simp only [isDigit, Bool.and_eq_true, decide_eq_true_eq] at first
    simp only [List.cons_append, List.take_succ_cons, List.mem_cons, List.cons.injEq,
      List.not_mem_nil, or_false, not_or, not_and]
    omega

theorem scalar_bool (value : Bool) (rest : Text)
    : scalar (text (if value then "true" else "false") ++ rest) = .ok (.bool value, rest) := by
  have null : text "null" = [110, 117, 108, 108] := by decide +kernel
  have yes : text "true" = [116, 114, 117, 101] := by decide +kernel
  have no : text "false" = [102, 97, 108, 115, 101] := by decide +kernel
  cases value <;> simp [scalar, constants, null, yes, no, List.isPrefixOf]

/-- Every scalar that is written is read back, whatever the limit. -/
theorem value_dumps {scalar : Scalar} {written : Text} (plain : scalar.Plain)
    (wrote : scalar.dumps = some written) (ends : Ends rest)
    : value limit (written ++ rest) = .ok (scalar.value, rest) := by
  suffices found : ∀ nested, scanOnce nested (written ++ rest) = .ok (scalar.value, rest) by
    cases limit with
    | zero => exact found none
    | succ limit => exact found _
  intro nested
  cases scalar with
  | str value =>
      cases wrote
      have read := scanString_plain plain rest
      rw [dumpsString_plain plain]
      simp [scanOnce, read, Scalar.value]
  | int n =>
      have read := scalar_int wrote ends
      rcases dumpsInt_start wrote with ⟨digit, after, first, rfl⟩ | ⟨digit, after, first, rfl⟩
      all_goals
        simp only [isDigit, Bool.and_eq_true, decide_eq_true_eq] at first
      · have apart : digit ≠ 34 ∧ digit ≠ 123 ∧ digit ≠ 91 := by omega
        simpa [scanOnce, apart, Scalar.value] using read
      · simpa [scanOnce, Scalar.value] using read
  | bool value =>
      cases wrote
      have read := scalar_bool value rest
      have yes : text "true" = [116, 114, 117, 101] := by decide +kernel
      have no : text "false" = [102, 97, 108, 115, 101] := by decide +kernel
      cases value <;> simp_all [scanOnce, Scalar.value]

/-- A value starts with no blank. -/
theorem skip_dumps {scalar : Scalar} {written : Text} (wrote : scalar.dumps = some written)
    : skip (written ++ rest) = written ++ rest := by
  have start : ∃ c after, written = c :: after ∧ isSpace c = false := by
    cases scalar with
    | str value =>
        cases wrote
        exact ⟨34, _, rfl, rfl⟩
    | int n =>
        rcases dumpsInt_start wrote with ⟨digit, after, first, rfl⟩ | ⟨digit, after, first, rfl⟩
        · refine ⟨digit, after, rfl, ?_⟩
          simp only [isDigit, Bool.and_eq_true, decide_eq_true_eq] at first
          simp only [isSpace, Bool.or_eq_false_iff, decide_eq_false_iff_not]
          omega
        · exact ⟨45, _, rfl, rfl⟩
    | bool value =>
        cases wrote
        have yes : text "true" = [116, 114, 117, 101] := by decide +kernel
        have no : text "false" = [102, 97, 108, 115, 101] := by decide +kernel
        cases value
        · exact ⟨102, [97, 108, 115, 101], no, rfl⟩
        · exact ⟨116, [114, 117, 101], yes, rfl⟩
  obtain ⟨c, after, rfl, solid⟩ := start
  simp [skip, solid]

theorem member_dumps {entry : Text × Scalar} {written : Text} (limit : Nat) (key : Plain entry.1)
    (plain : entry.2.Plain) (wrote : dumpsMember entry = some written) (ends : Ends rest)
    : member (value limit) (written ++ rest) = .ok ((entry.1, entry.2.value), rest) := by
  obtain ⟨name, scalar⟩ := entry
  unfold dumpsMember at wrote
  cases inner : scalar.dumps with
  | none => simp [inner] at wrote
  | some text =>
      simp only [inner, Option.map_some, Option.some.injEq] at wrote
      have layout : written ++ rest = 34 :: (name ++ 34 :: 58 :: 32 :: (text ++ rest)) := by
        rw [← wrote, dumpsString_plain key]
        simp
      have blank : skip (32 :: (text ++ rest)) = text ++ rest := by
        rw [skip, List.dropWhile_cons_of_pos rfl]
        exact skip_dumps inner
      have colon : skip (58 :: 32 :: (text ++ rest)) = 58 :: 32 :: (text ++ rest) := rfl
      rw [layout]
      simp only [member, scanString_plain key _, colon, blank, value_dumps plain inner ends]

theorem dumpsMember_start {entry : Text × Scalar} {written : Text}
    (wrote : dumpsMember entry = some written)
    : ∃ after, written = 34 :: after := by
  unfold dumpsMember at wrote
  cases inner : entry.2.dumps with
  | none => simp [inner] at wrote
  | some text =>
      simp only [inner, Option.map_some, Option.some.injEq] at wrote
      exact ⟨_, wrote.symm⟩

theorem dumpsMembers_start {entries : List (Text × Scalar)} {written : Text}
    (some : entries ≠ []) (wrote : dumpsMembers entries = .some written)
    : ∃ after, written = 34 :: after := by
  cases entries with
  | nil => exact absurd rfl some
  | cons entry more =>
      simp only [dumpsMembers, Option.bind_eq_bind, Option.bind_eq_some_iff] at wrote
      obtain ⟨first, wroteFirst, others, _, joined⟩ := wrote
      obtain ⟨after, rfl⟩ := dumpsMember_start wroteFirst
      cases joined
      split
      · exact ⟨after, rfl⟩
      · exact ⟨_, rfl⟩

/-- The members of an object are read back, by induction on them. -/
theorem members_dumps {entries : List (Text × Scalar)} {written : Text} {fuel : Nat}
    (keys : ∀ entry ∈ entries, Plain entry.1) (plain : ∀ entry ∈ entries, entry.2.Plain)
    (some : entries ≠ []) (wrote : dumpsMembers entries = .some written)
    (enough : entries.length ≤ fuel)
    : members (value limit) fuel (written ++ 125 :: rest)
      = .ok (entries.map (fun entry => (entry.1, entry.2.value)), rest) := by
  induction entries generalizing written fuel with
  | nil => exact absurd rfl some
  | cons entry more ih =>
      simp only [dumpsMembers, Option.bind_eq_bind, Option.bind_eq_some_iff] at wrote
      obtain ⟨first, wroteFirst, others, wroteMore, joined⟩ := wrote
      have key := keys entry List.mem_cons_self
      have scalar := plain entry List.mem_cons_self
      cases fuel with
      | zero => simp at enough
      | succ fuel =>
          cases joined
          by_cases last : more = []
          · subst last
            have read :=
              member_dumps limit key scalar wroteFirst ⟨125, rest, rfl, .inr rfl⟩
            have brace : skip (125 :: rest) = 125 :: rest := rfl
            simp only [if_true, members, read, brace, List.map_cons, List.map_nil]
          · let after := 44 :: 32 :: (others ++ 125 :: rest)
            have read :=
              member_dumps limit key scalar wroteFirst (show Ends after from ⟨44, _, rfl, .inl rfl⟩)
            have layout : first ++ [44, 32] ++ others ++ 125 :: rest = first ++ after := by
              simp [after]
            have comma : skip after = after := rfl
            obtain ⟨start, quote⟩ := dumpsMembers_start last wroteMore
            have blank : skip (32 :: (others ++ 125 :: rest)) = others ++ 125 :: rest := by
              rw [quote]
              rfl
            have left :=
              ih (fun entry member => keys entry (List.mem_cons_of_mem _ member))
                (fun entry member => plain entry (List.mem_cons_of_mem _ member)) last wroteMore
                (show more.length ≤ fuel by simpa using enough)
            rw [if_neg last, layout]
            simp only [members, read, comma, after, blank, left, List.map_cons]

theorem dumpsMembers_length {entries : List (Text × Scalar)} {written : Text}
    (wrote : dumpsMembers entries = some written)
    : entries.length ≤ written.length := by
  induction entries generalizing written with
  | nil => simp
  | cons entry more ih =>
      simp only [dumpsMembers, Option.bind_eq_bind, Option.bind_eq_some_iff] at wrote
      obtain ⟨first, wroteFirst, others, wroteMore, joined⟩ := wrote
      obtain ⟨after, rfl⟩ := dumpsMember_start wroteFirst
      have fewer := ih wroteMore
      cases joined
      split
      · rename_i none
        simp [none]
      · simp only [List.length_cons, List.length_append]
        omega

/-- `json.loads` reads back the flat objects that `json.dumps` writes of plain strings. -/
theorem parse_dumps {entries : List (Text × Scalar)} {written : Text} (limit : Nat)
    (keys : ∀ entry ∈ entries, Plain entry.1) (plain : ∀ entry ∈ entries, entry.2.Plain)
    (some : entries ≠ []) (wrote : dumps entries = .some written) (blank : skip rest = [])
    : parse (limit + 1) (written ++ rest)
      = .ok (.dict (entries.map (fun entry => (entry.1, entry.2.value)))) := by
  unfold dumps at wrote
  obtain ⟨inner, wroteMembers, rfl⟩ := Option.map_eq_some_iff.mp wrote
  obtain ⟨start, quote⟩ := dumpsMembers_start some wroteMembers
  have enough : entries.length ≤ (inner ++ 125 :: rest).length := by
    have fewer := dumpsMembers_length wroteMembers
    rw [List.length_append]
    omega
  have body : object (value limit) (inner ++ 125 :: rest)
      = .ok (entries.map (fun entry => (entry.1, entry.2.value)), rest) := by
    have blank : skip (inner ++ 125 :: rest) = inner ++ 125 :: rest := by
      rw [quote]
      rfl
    have read : members (value limit) _ (inner ++ 125 :: rest) = _ :=
      members_dumps keys plain some wroteMembers enough
    unfold object
    rw [blank]
    split
    · rename_i left brace
      rw [quote] at brace
      cases brace
    · exact read
  have layout : 123 :: inner ++ [125] ++ rest = 123 :: (inner ++ 125 :: rest) := by simp
  have brace : skip (123 :: (inner ++ 125 :: rest)) = 123 :: (inner ++ 125 :: rest) := rfl
  rw [layout, parse, brace]
  simp [value, scanOnce, body, Except.map, blank]

-----------------------------------------------------------------------------------------
-- Bytes
-----------------------------------------------------------------------------------------

/-- Characters of ASCII but for the null. -/
def Ascii (s : Text) : Prop := ∀ c ∈ s, 0 < c ∧ c < 128

theorem utf8_ascii (ascii : Ascii s) : utf8 s = some s := by
  induction s with
  | nil => rfl
  | cons c rest ih =>
      have left := ih (fun c member => ascii c (List.mem_cons_of_mem _ member))
      have small : c < 0x80 := (ascii c List.mem_cons_self).2
      rw [utf8.eq_def]
      simp [small, left]

/-- ASCII bytes are taken for UTF-8. -/
theorem decodeBytes_ascii (ascii : Ascii s) : decodeBytes s = some s := by
  have read := utf8_ascii ascii
  have unmarked : ∀ mark : Text, ∀ c after, mark = c :: after → c = 0 ∨ 128 ≤ c →
      ¬mark.isPrefixOf s = true := by
    rintro mark c after rfl outside start
    obtain ⟨rest, rfl⟩ := List.isPrefixOf_iff_prefix.mp start
    have within := ascii c (by simp)
    omega
  unfold decodeBytes
  rw [if_neg (unmarked _ 0 _ rfl (by decide)), if_neg (unmarked _ 0xFF _ rfl (by decide)),
    if_neg (unmarked _ 0xFE _ rfl (by decide)), if_neg (unmarked _ 0xFF _ rfl (by decide)),
    if_neg (unmarked _ 0xEF _ rfl (by decide))]
  have nonzero : (0 : Nat) ∉ s := by
    intro null
    exact absurd (ascii 0 null).1 (Nat.lt_irrefl 0)
  split
  all_goals first
    | exact read
    | exact absurd (by simp) nonzero

theorem encode_toNat (ascii : Ascii s) : (encode s).map UInt8.toNat = s := by
  rw [encode, List.map_map]
  have same : ∀ c ∈ s, (UInt8.toNat ∘ UInt8.ofNat) c = id c := by
    intro c member
    have small : c < 128 := (ascii c member).2
    exact UInt8.toNat_ofNat_of_lt' (small.trans (by decide))
  rw [List.map_congr_left same, List.map_id]

theorem decimal_ascii (n : Nat) : Ascii (decimal n) := by
  intro c member
  have digit := decimal_digits n c member
  simp only [isDigit, Bool.and_eq_true, decide_eq_true_eq] at digit
  omega

theorem Plain.ascii (plain : Plain s) : Ascii s := by
  intro c member
  have printed := plain c member
  simp only [isPlain, Bool.and_eq_true, decide_eq_true_eq] at printed
  omega

theorem ascii_append {s rest : Text} (first : Ascii s) (last : Ascii rest)
    : Ascii (s ++ rest) := by
  intro c member
  rcases List.mem_append.mp member with before | after
  · exact first c before
  · exact last c after

theorem dumpsString_ascii (plain : Plain s) : Ascii (dumpsString s) := by
  rw [dumpsString_plain plain]
  have quote : Ascii [34] := by simp [Ascii]
  exact ascii_append (ascii_append quote plain.ascii) quote

theorem Scalar.dumps_ascii {scalar : Scalar} {written : Text} (plain : scalar.Plain)
    (wrote : scalar.dumps = some written)
    : Ascii written := by
  cases scalar with
  | str value =>
      cases wrote
      exact dumpsString_ascii plain
  | int n =>
      have wrote : dumpsInt n = some written := wrote
      unfold dumpsInt at wrote
      split at wrote
      · cases wrote
      · cases wrote
        apply ascii_append _ (decimal_ascii _)
        split <;> simp [Ascii]
  | bool value =>
      cases wrote
      cases value
      · exact (by decide +kernel : ∀ c ∈ text "false", 0 < c ∧ c < 128)
      · exact (by decide +kernel : ∀ c ∈ text "true", 0 < c ∧ c < 128)

theorem dumpsMember_ascii {entry : Text × Scalar} {written : Text} (key : Plain entry.1)
    (plain : entry.2.Plain) (wrote : dumpsMember entry = some written)
    : Ascii written := by
  unfold dumpsMember at wrote
  obtain ⟨inner, wroteInner, rfl⟩ := Option.map_eq_some_iff.mp wrote
  have colon : Ascii [58, 32] := by simp [Ascii]
  exact ascii_append (ascii_append (dumpsString_ascii key) colon)
    (Scalar.dumps_ascii plain wroteInner)

theorem dumpsMembers_ascii {entries : List (Text × Scalar)} {written : Text}
    (keys : ∀ entry ∈ entries, Plain entry.1) (plain : ∀ entry ∈ entries, entry.2.Plain)
    (wrote : dumpsMembers entries = some written)
    : Ascii written := by
  induction entries generalizing written with
  | nil =>
      cases wrote
      simp [Ascii]
  | cons entry more ih =>
      simp only [dumpsMembers, Option.bind_eq_bind, Option.bind_eq_some_iff] at wrote
      obtain ⟨first, wroteFirst, others, wroteMore, joined⟩ := wrote
      have start :=
        dumpsMember_ascii (keys entry List.mem_cons_self) (plain entry List.mem_cons_self)
          wroteFirst
      have left :=
        ih (fun entry member => keys entry (List.mem_cons_of_mem _ member))
          (fun entry member => plain entry (List.mem_cons_of_mem _ member)) wroteMore
      have comma : Ascii [44, 32] := by simp [Ascii]
      cases joined
      split
      · exact start
      · exact ascii_append (ascii_append start comma) left

/-- `json.dumps` of plain strings is ASCII. -/
theorem dumps_ascii {entries : List (Text × Scalar)} {written : Text}
    (keys : ∀ entry ∈ entries, Plain entry.1) (plain : ∀ entry ∈ entries, entry.2.Plain)
    (wrote : dumps entries = some written)
    : Ascii written := by
  obtain ⟨inner, wroteMembers, rfl⟩ := Option.map_eq_some_iff.mp wrote
  have brace : Ascii [123] ∧ Ascii [125] := by simp [Ascii]
  exact ascii_append (ascii_append brace.1 (dumpsMembers_ascii keys plain wroteMembers)) brace.2

/-- `json.loads` reads back the bytes of such an object, with blanks after it. -/
theorem loads_dumps {entries : List (Text × Scalar)} {written : Text} (limit : Nat)
    (keys : ∀ entry ∈ entries, Plain entry.1) (plain : ∀ entry ∈ entries, entry.2.Plain)
    (some : entries ≠ []) (wrote : dumps entries = .some written) (blank : skip rest = [])
    (ascii : Ascii rest)
    : loads (limit + 1) (encode (written ++ rest))
      = .ok (.dict (entries.map (fun entry => (entry.1, entry.2.value)))) := by
  have whole := ascii_append (dumps_ascii keys plain wrote) ascii
  rw [loads, encode_toNat whole, decodeBytes_ascii whole]
  exact parse_dumps limit keys plain some wrote blank

/-- A byte string of opening brackets nests as deep as it is long. -/
theorem loads_brackets {n : Nat} (deep : limit < n)
    : loads limit (List.replicate n 91) = .error .recursion := by
  have ascii : Ascii (List.replicate n 91) := by
    intro c member
    rw [List.eq_of_mem_replicate member]
    omega
  have bytes : (List.replicate n (91 : UInt8)).map UInt8.toNat = List.replicate n 91 := by
    rw [List.map_replicate]
    rfl
  have solid : skip (List.replicate n 91) = List.replicate n 91 := by
    cases n with
    | zero => rfl
    | succ n => rfl
  rw [loads, bytes, decodeBytes_ascii ascii]
  exact parse_recursion.mpr (by rw [solid]; exact value_brackets deep)

end Json
