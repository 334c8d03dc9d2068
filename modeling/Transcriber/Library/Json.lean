import Mathlib.Data.List.TakeWhile
import Mathlib.Data.Nat.Find

/-! JSON as Python reads and writes it: bytes in any of its encodings, texts as code points that
may be lone surrogates, a limit on the nesting of arrays and objects, and flat objects as
`json.dumps` writes them.
-/

namespace Json

/-- A string, as code points. -/
abbrev Text := List Nat

/-- The code points of a literal. -/
def text (literal : String) : Text := literal.toList.map Char.toNat

/-- Objects keep all their members in order; of equal keys the last one counts. -/
inductive Value
  | null
  | bool (value : Bool)
  | int (value : Int)
  | float (literal : Text)
  | str (value : Text)
  | list (items : List Value)
  | dict (members : List (Text × Value))

/-- The value of a key: of equal keys the last one. -/
def lookup (members : List (Text × Value)) (name : Text) : Option Value :=
  (members.reverse.find? (fun entry => entry.1 = name)).map Prod.snd

/-- Why reading fails: a text or an encoding that is not valid, or RecursionError. -/
inductive Error
  | decode
  | recursion
  deriving DecidableEq, Repr

/-- A parser, with the text that it leaves. -/
abbrev Parser (α : Type) := Text → Except Error (α × Text)

-----------------------------------------------------------------------------------------
-- Encodings
-----------------------------------------------------------------------------------------

/-- A continuation byte of UTF-8. -/
def isTail (b : Nat) : Bool := 0x80 ≤ b && b ≤ 0xBF

/-- UTF-8 with the error handler `surrogatepass`. -/
def utf8 : List Nat → Option Text
  | [] => some []
  | a :: rest =>
      if a < 0x80 then
        (utf8 rest).map (a :: ·)
      else if 0xC2 ≤ a && a ≤ 0xDF then
        match rest with
        | b :: rest =>
            if isTail b then (utf8 rest).map (((a - 0xC0) * 64 + (b - 0x80)) :: ·) else none
        | _ => none
      else if 0xE0 ≤ a && a ≤ 0xEF then
        match rest with
        | b :: c :: rest =>
            if isTail b && isTail c && (a ≠ 0xE0 || 0xA0 ≤ b) then
              (utf8 rest).map (((a - 0xE0) * 4096 + (b - 0x80) * 64 + (c - 0x80)) :: ·)
            else
              none
        | _ => none
      else if 0xF0 ≤ a && a ≤ 0xF4 then
        match rest with
        | b :: c :: d :: rest =>
            if isTail b && isTail c && isTail d && (a ≠ 0xF0 || 0x90 ≤ b)
                && (a ≠ 0xF4 || b ≤ 0x8F) then
              (utf8 rest).map
                (((a - 0xF0) * 262144 + (b - 0x80) * 4096 + (c - 0x80) * 64 + (d - 0x80)) :: ·)
            else
              none
        | _ => none
      else
        none

def isHigh (unit : Nat) : Bool := 0xD800 ≤ unit && unit < 0xDC00

def isLow (unit : Nat) : Bool := 0xDC00 ≤ unit && unit < 0xE000

/-- Code units, of which those marked as escaped are joined in pairs of surrogates. -/
def join : List (Bool × Nat) → Text
  | [] => []
  | (escaped, unit) :: rest =>
      match rest.head? with
      | some (true, low) =>
          if escaped && isHigh unit && isLow low then
            (0x10000 + (unit - 0xD800) * 1024 + (low - 0xDC00)) :: (join rest).tail
          else
            unit :: join rest
      | _ => unit :: join rest

def utf16Units (big : Bool) : List Nat → Option Text
  | [] => some []
  | a :: b :: rest =>
      (utf16Units big rest).map ((if big then 256 * a + b else 256 * b + a) :: ·)
  | _ => none

/-- UTF-16 with the error handler `surrogatepass`. -/
def utf16 (big : Bool) (bytes : List Nat) : Option Text :=
  (utf16Units big bytes).map (fun units => join (units.map (true, ·)))

/-- UTF-32 with the error handler `surrogatepass`. -/
def utf32 (big : Bool) : List Nat → Option Text
  | [] => some []
  | a :: b :: c :: d :: rest =>
      let code :=
        if big then
          ((a * 256 + b) * 256 + c) * 256 + d
        else
          ((d * 256 + c) * 256 + b) * 256 + a
      if code ≤ 0x10FFFF then (utf32 big rest).map (code :: ·) else none
  | _ => none

/-- The text of a byte string in the encoding that `detect_encoding` finds. -/
def decodeBytes (bytes : List Nat) : Option Text :=
  if [0, 0, 0xFE, 0xFF].isPrefixOf bytes then
    utf32 true (bytes.drop 4)
  else if [0xFF, 0xFE, 0, 0].isPrefixOf bytes then
    utf32 false (bytes.drop 4)
  else if [0xFE, 0xFF].isPrefixOf bytes then
    utf16 true (bytes.drop 2)
  else if [0xFF, 0xFE].isPrefixOf bytes then
    utf16 false (bytes.drop 2)
  else if [0xEF, 0xBB, 0xBF].isPrefixOf bytes then
    utf8 (bytes.drop 3)
  else
    match bytes with
    | 0 :: 0 :: _ :: _ :: _ => utf32 true bytes
    | 0 :: _ :: _ :: _ :: _ => utf16 true bytes
    | _ :: 0 :: c :: d :: _ => if c ≠ 0 || d ≠ 0 then utf16 false bytes else utf32 false bytes
    | [0, _] => utf16 true bytes
    | [_, 0] => utf16 false bytes
    | _ => utf8 bytes

-----------------------------------------------------------------------------------------
-- Scalars
-----------------------------------------------------------------------------------------

def isSpace (c : Nat) : Bool := c = 32 || c = 9 || c = 10 || c = 13

def skip (s : Text) : Text := s.dropWhile isSpace

def hexDigit (c : Nat) : Option Nat :=
  if 48 ≤ c && c ≤ 57 then
    some (c - 48)
  else if 97 ≤ c && c ≤ 102 then
    some (c - 87)
  else if 65 ≤ c && c ≤ 70 then
    some (c - 55)
  else
    none

/-- The code unit of an escape `\u` with its four digits. -/
def hexUnit (a b c d : Nat) : Option Nat := do
  return (((← hexDigit a) * 16 + (← hexDigit b)) * 16 + (← hexDigit c)) * 16 + (← hexDigit d)

/-- The other escapes. -/
def unescape : Nat → Option Nat
  | 34 => some 34
  | 92 => some 92
  | 47 => some 47
  | 98 => some 8
  | 102 => some 12
  | 110 => some 10
  | 114 => some 13
  | 116 => some 9
  | _ => none

/-- The code units of a string after its opening quote, and the text after its closing one. -/
def scanUnits : Text → Option (List (Bool × Nat) × Text)
  | [] => none
  | c :: rest =>
      if c = 34 then
        some ([], rest)
      else if c = 92 then
        match rest with
        | 117 :: a :: b :: c :: d :: rest =>
            match hexUnit a b c d, scanUnits rest with
            | some unit, some (units, after) => some ((true, unit) :: units, after)
            | _, _ => none
        | e :: rest =>
            match unescape e, scanUnits rest with
            | some unit, some (units, after) => some ((false, unit) :: units, after)
            | _, _ => none
        | [] => none
      else if c < 32 then
        none
      else
        match scanUnits rest with
        | some (units, after) => some ((false, c) :: units, after)
        | none => none

def scanString (s : Text) : Option (Text × Text) :=
  (scanUnits s).map (fun scanned => (join scanned.1, scanned.2))

def isDigit (c : Nat) : Bool := 48 ≤ c && c ≤ 57

/-- The value of decimal digits. -/
def ofDigits (digits : Text) : Nat := digits.foldl (fun n c => 10 * n + (c - 48)) 0

/-- A fraction, if there is one, and the text after it. -/
def fraction : Text → Text × Text
  | 46 :: rest =>
      let digits := rest.takeWhile isDigit
      if digits = [] then ([], 46 :: rest) else (46 :: digits, rest.dropWhile isDigit)
  | s => ([], s)

/-- An exponent, if there is one, and the text after it. -/
def exponent : Text → Text × Text
  | [] => ([], [])
  | c :: rest =>
      let sign := rest.takeWhile (fun c => c = 43 || c = 45) |>.take 1
      let digits := (rest.drop sign.length).takeWhile isDigit
      if (c = 69 || c = 101) && digits ≠ [] then
        (c :: sign ++ digits, (rest.drop sign.length).dropWhile isDigit)
      else
        ([], c :: rest)

/-- The most digits of an integer that `int` reads and `str` writes. -/
def maxDigits : Nat := 4300

/-- A minus sign, if there is one. -/
def sign (s : Text) : Text := if s.head? = some 45 then [45] else []

/-- The digits of an integer, which has no leading zero. -/
def integerDigits (s : Text) : Text :=
  if s.head? = some 48 then [48] else s.takeWhile isDigit

/-- The number at the start of a text. -/
def number (s : Text) : Except Error (Value × Text) :=
  let unsigned := s.drop (sign s).length
  let digits := integerDigits unsigned
  let frac := fraction (unsigned.drop digits.length)
  let exp := exponent frac.2
  if digits = [] then
    .error .decode
  else if frac.1 ++ exp.1 ≠ [] then
    .ok (.float (sign s ++ digits ++ frac.1 ++ exp.1), exp.2)
  else if maxDigits < digits.length then
    .error .decode
  else
    .ok (.int (if sign s = [] then ofDigits digits else -ofDigits digits), exp.2)

/-- The constants. -/
def constants : List (Text × Value) :=
  [(text "null", .null), (text "true", .bool true), (text "false", .bool false),
    (text "NaN", .float (text "NaN")), (text "Infinity", .float (text "Infinity")),
    (text "-Infinity", .float (text "-Infinity"))]

/-- A constant or a number. -/
def scalar (s : Text) : Except Error (Value × Text) :=
  match constants.find? (fun constant => constant.1.isPrefixOf s) with
  | some (name, value) => .ok (value, s.drop name.length)
  | none => number s

-----------------------------------------------------------------------------------------
-- Arrays and objects
-----------------------------------------------------------------------------------------

/-- The items of an array after `[` or a comma, at most as many as the fuel. -/
def items (p : Parser Value) : Nat → Parser (List Value)
  | 0, _ => .error .decode
  | fuel + 1, s =>
      match p s with
      | .error error => .error error
      | .ok (value, rest) =>
          match skip rest with
          | 93 :: rest => .ok ([value], rest)
          | 44 :: rest =>
              match items p fuel (skip rest) with
              | .error error => .error error
              | .ok (values, rest) => .ok (value :: values, rest)
          | _ => .error .decode

def array (p : Parser Value) (s : Text) : Except Error (List Value × Text) :=
  match skip s with
  | 93 :: rest => .ok ([], rest)
  | start => items p start.length start

/-- One member of an object, from its key to the text after its value. -/
def member (p : Parser Value) : Parser (Text × Value)
  | 34 :: rest =>
      match scanString rest with
      | none => .error .decode
      | some (key, rest) =>
          match skip rest with
          | 58 :: rest =>
              match p (skip rest) with
              | .error error => .error error
              | .ok (value, rest) => .ok ((key, value), rest)
          | _ => .error .decode
  | _ => .error .decode

/-- The members of an object after `{` or a comma, at most as many as the fuel. -/
def members (p : Parser Value) : Nat → Parser (List (Text × Value))
  | 0, _ => .error .decode
  | fuel + 1, s =>
      match member p s with
      | .error error => .error error
      | .ok (entry, rest) =>
          match skip rest with
          | 125 :: rest => .ok ([entry], rest)
          | 44 :: rest =>
              match members p fuel (skip rest) with
              | .error error => .error error
              | .ok (entries, rest) => .ok (entry :: entries, rest)
          | _ => .error .decode

def object (p : Parser Value) (s : Text) : Except Error (List (Text × Value) × Text) :=
  match skip s with
  | 125 :: rest => .ok ([], rest)
  | start => members p start.length start

/-- `scan_once`, with the parser of nested values while the limit allows one. -/
def scanOnce (nested : Option (Parser Value)) : Parser Value
  | [] => .error .decode
  | c :: rest =>
      if c = 34 then
        match scanString rest with
        | some (value, rest) => .ok (.str value, rest)
        | none => .error .decode
      else if c = 123 then
        match nested with
        | none => .error .recursion
        | some p => (object p rest).map (fun read => (.dict read.1, read.2))
      else if c = 91 then
        match nested with
        | none => .error .recursion
        | some p => (array p rest).map (fun read => (.list read.1, read.2))
      else
        scalar (c :: rest)

/-- A value whose arrays and objects are nested at most as deep as the limit. -/
def value : Nat → Parser Value
  | 0 => scanOnce none
  | limit + 1 => scanOnce (some (value limit))

/-- `json.loads` of a text. -/
def parse (limit : Nat) (s : Text) : Except Error Value :=
  match value limit (skip s) with
  | .error error => .error error
  | .ok (value, rest) => if skip rest = [] then .ok value else .error .decode

/-- `json.loads` of a byte string. -/
def loads (limit : Nat) (body : List UInt8) : Except Error Value :=
  match decodeBytes (body.map UInt8.toNat) with
  | none => .error .decode
  | some s => parse limit s

-----------------------------------------------------------------------------------------
-- What a parser leaves
-----------------------------------------------------------------------------------------

variable {s rest : Text} {p q : Parser Value} {fuel limit : Nat}

/-- The parser leaves less than it reads. -/
def Shortens {α : Type} (p : Parser α) : Prop :=
  ∀ s read rest, p s = .ok (read, rest) → rest.length < s.length

theorem skip_length (s : Text) : (skip s).length ≤ s.length :=
  (List.dropWhile_sublist _).length_le

/-- A closed string is shorter, by induction on the text. -/
theorem scanUnits_length {units : List (Bool × Nat)} (read : scanUnits s = some (units, rest))
    : rest.length < s.length := by
  fun_induction scanUnits s generalizing units rest with
  | case1 => cases read
  | case2 after => cases read; simp
  | case3 a b c d after unit units' left scanned code escape ih =>
      cases read
      have shorter := ih scanned
      simp only [List.length_cons]
      omega
  | case4 => cases read
  | case5 e after plain unit units' left scanned code escape ih =>
      cases read
      have shorter := ih scanned
      simp only [List.length_cons]
      omega
  | case6 => cases read
  | case7 => cases read
  | case8 => cases read
  | case9 c after quote escape printed units' left scanned ih =>
      cases read
      have shorter := ih scanned
      simp only [List.length_cons]
      omega
  | case10 => cases read

theorem scanString_length {value : Text} (read : scanString s = some (value, rest))
    : rest.length < s.length := by
  unfold scanString at read
  cases scanned : scanUnits s with
  | none => simp [scanned] at read
  | some left =>
      obtain ⟨units, after⟩ := left
      simp only [scanned, Option.map_some, Option.some.injEq, Prod.mk.injEq] at read
      exact read.2 ▸ scanUnits_length scanned

theorem fraction_length (s : Text) : (fraction s).2.length ≤ s.length := by
  unfold fraction
  split
  · rename_i after
    have shorter := (List.dropWhile_sublist isDigit (l := after)).length_le
    dsimp only
    split
    · exact le_rfl
    · simp only [List.length_cons]
      omega
  · exact le_rfl

theorem exponent_length (s : Text) : (exponent s).2.length ≤ s.length := by
  unfold exponent
  split
  · exact le_rfl
  · rename_i c after
    dsimp only
    split
    · have shorter :=
        (List.dropWhile_sublist isDigit
          (l := after.drop ((after.takeWhile (fun c => c = 43 || c = 45)).take 1).length)).length_le
      simp only [List.length_drop, List.length_cons] at shorter ⊢
      omega
    · exact le_rfl

theorem integerDigits_length (s : Text) : (integerDigits s).length ≤ s.length := by
  unfold integerDigits
  split
  · rename_i zero
    cases s with
    | nil => cases zero
    | cons c after => simp
  · exact (List.takeWhile_sublist _).length_le

/-- A number has a digit. -/
theorem number_shortens : Shortens number := by
  intro s value rest read
  have known :
      integerDigits (s.drop (sign s).length) ≠ []
      ∧ rest = (exponent (fraction ((s.drop (sign s).length).drop
          (integerDigits (s.drop (sign s).length)).length)).2).2 := by
    unfold number at read
    dsimp only at read
    split at read
    · cases read
    · rename_i some
      split at read
      · cases read
        exact ⟨some, rfl⟩
      · split at read
        · cases read
        · cases read
          exact ⟨some, rfl⟩
  obtain ⟨digit, rfl⟩ := known
  have fewer :=
    (exponent_length _).trans
      (fraction_length ((s.drop (sign s).length).drop
        (integerDigits (s.drop (sign s).length)).length))
  have some := List.length_pos_iff.mpr digit
  have within := integerDigits_length (s.drop (sign s).length)
  simp only [List.length_drop] at fewer within
  omega

theorem constants_nonempty : ∀ constant ∈ constants, constant.1 ≠ [] := by
  decide +kernel

theorem scalar_shortens : Shortens scalar := by
  intro s value rest read
  unfold scalar at read
  split at read
  · rename_i name found constant
    cases read
    have nonempty := constants_nonempty _ (List.mem_of_find?_eq_some constant)
    have start := List.find?_some constant
    have within := (List.isPrefixOf_iff_prefix.mp start).length_le
    have some := List.length_pos_iff.mpr nonempty
    dsimp only at within some
    simp only [List.length_drop]
    omega
  · exact number_shortens s value rest read

/-- What follows a character that `skip` finds. -/
theorem after_skip {c : Nat} (found : skip s = c :: rest) : rest.length < s.length := by
  have shorter := skip_length s
  rw [found, List.length_cons] at shorter
  omega

theorem items_shortens (shortens : Shortens p) (fuel : Nat) : Shortens (items p fuel) := by
  induction fuel with
  | zero =>
      intro s values rest read
      cases read
  | succ fuel ih =>
      intro s values rest read
      unfold items at read
      split at read
      · cases read
      · rename_i value after first
        have shorter := shortens s value after first
        split at read
        · rename_i left bracket
          cases read
          exact (after_skip bracket).trans shorter
        · rename_i left comma
          split at read
          · cases read
          · rename_i values' left' more
            cases read
            have fewer := ih _ _ _ more
            have skipped := skip_length left
            have passed := after_skip comma
            omega
        · cases read

theorem array_shortens (shortens : Shortens p) {values : List Value}
    (read : array p s = .ok (values, rest))
    : rest.length < s.length := by
  unfold array at read
  split at read
  · rename_i left bracket
    cases read
    exact after_skip bracket
  · exact (items_shortens shortens _ _ _ _ read).trans_le (skip_length s)

theorem member_shortens (shortens : Shortens p) : Shortens (member p) := by
  intro s entry rest read
  unfold member at read
  split at read
  · rename_i start
    split at read
    · cases read
    · rename_i key after quoted
      have closed := scanString_length quoted
      split at read
      · rename_i left colon
        split at read
        · cases read
        · rename_i value left' parsed
          cases read
          have shorter := shortens _ _ _ parsed
          have skipped := skip_length left
          have passed := after_skip colon
          simp only [List.length_cons]
          omega
      · cases read
  · cases read

theorem members_shortens (shortens : Shortens p) (fuel : Nat) : Shortens (members p fuel) := by
  induction fuel with
  | zero =>
      intro s entries rest read
      cases read
  | succ fuel ih =>
      intro s entries rest read
      unfold members at read
      split at read
      · cases read
      · rename_i entry after first
        have shorter := member_shortens shortens s entry after first
        split at read
        · rename_i left brace
          cases read
          exact (after_skip brace).trans shorter
        · rename_i left comma
          split at read
          · cases read
          · rename_i entries' left' more
            cases read
            have fewer := ih _ _ _ more
            have skipped := skip_length left
            have passed := after_skip comma
            omega
        · cases read

theorem object_shortens (shortens : Shortens p) {entries : List (Text × Value)}
    (read : object p s = .ok (entries, rest))
    : rest.length < s.length := by
  unfold object at read
  split at read
  · rename_i left brace
    cases read
    exact after_skip brace
  · exact (members_shortens shortens _ _ _ _ read).trans_le (skip_length s)

/-- A value is not empty, whatever parses the values in it. -/
theorem scanOnce_shortens {nested : Option (Parser Value)} (shortens : ∀ p ∈ nested, Shortens p)
    : Shortens (scanOnce nested) := by
  intro s value rest read
  cases s with
  | nil => cases read
  | cons c after =>
      simp only [scanOnce] at read
      rw [List.length_cons]
      split at read
      · split at read
        · rename_i text left quoted
          cases read
          exact (scanString_length quoted).trans (Nat.lt_succ_self _)
        · cases read
      · split at read
        · cases nested with
          | none => cases read
          | some p =>
              dsimp only at read
              cases parsed : object p after with
              | error error => rw [parsed] at read; cases read
              | ok found =>
                  rw [parsed] at read
                  cases read
                  exact (object_shortens (shortens p rfl) parsed).trans (Nat.lt_succ_self _)
        · split at read
          · cases nested with
            | none => cases read
            | some p =>
                dsimp only at read
                cases parsed : array p after with
                | error error => rw [parsed] at read; cases read
                | ok found =>
                    rw [parsed] at read
                    cases read
                    exact (array_shortens (shortens p rfl) parsed).trans (Nat.lt_succ_self _)
          · exact scalar_shortens _ _ _ read

/-- Every value is shorter than the text before it, by induction on the limit. -/
theorem value_shortens (limit : Nat) : Shortens (value limit) := by
  induction limit with
  | zero => exact scanOnce_shortens (by simp)
  | succ limit ih =>
      apply scanOnce_shortens
      intro p found
      cases found
      exact ih

-----------------------------------------------------------------------------------------
-- Nesting
-----------------------------------------------------------------------------------------

/-- The parser ends in a RecursionError only on texts longer than a bound. -/
def Bounded {α : Type} (bound : Nat) (p : Parser α) : Prop :=
  ∀ s, p s = .error .recursion → bound < s.length

/-- The second parser does what the first does without a RecursionError. -/
def Extends {α : Type} (p q : Parser α) : Prop :=
  ∀ s, p s ≠ .error .recursion → q s = p s

theorem scalar_not_recursion (s : Text) : scalar s ≠ .error .recursion := by
  intro overflow
  unfold scalar at overflow
  split at overflow
  · cases overflow
  · unfold number at overflow
    dsimp only at overflow
    split at overflow
    · cases overflow
    · split at overflow
      · cases overflow
      · split at overflow <;> cases overflow

theorem items_bounded {bound : Nat} (shortens : Shortens p) (bounded : Bounded bound p)
    (fuel : Nat)
    : Bounded bound (items p fuel) := by
  induction fuel with
  | zero =>
      intro s overflow
      cases overflow
  | succ fuel ih =>
      intro s overflow
      unfold items at overflow
      split at overflow
      · rename_i error first
        cases overflow
        exact bounded s first
      · rename_i value after first
        have shorter := shortens s value after first
        split at overflow
        · cases overflow
        · rename_i left comma
          split at overflow
          · rename_i error more
            cases overflow
            have longer := ih _ more
            have skipped := skip_length left
            have passed := after_skip comma
            omega
          · cases overflow
        · cases overflow

theorem member_bounded {bound : Nat} (bounded : Bounded bound p) : Bounded bound (member p) := by
  intro s overflow
  unfold member at overflow
  split at overflow
  · rename_i start
    split at overflow
    · cases overflow
    · rename_i key after quoted
      have closed := scanString_length quoted
      split at overflow
      · rename_i left colon
        split at overflow
        · rename_i error parsed
          cases overflow
          have longer := bounded _ parsed
          have skipped := skip_length left
          have passed := after_skip colon
          simp only [List.length_cons]
          omega
        · cases overflow
      · cases overflow
  · cases overflow

theorem members_bounded {bound : Nat} (shortens : Shortens p) (bounded : Bounded bound p)
    (fuel : Nat)
    : Bounded bound (members p fuel) := by
  induction fuel with
  | zero =>
      intro s overflow
      cases overflow
  | succ fuel ih =>
      intro s overflow
      unfold members at overflow
      split at overflow
      · rename_i error first
        cases overflow
        exact member_bounded bounded s first
      · rename_i entry after first
        have shorter := member_shortens shortens s entry after first
        split at overflow
        · cases overflow
        · rename_i left comma
          split at overflow
          · rename_i error more
            cases overflow
            have longer := ih _ more
            have skipped := skip_length left
            have passed := after_skip comma
            omega
          · cases overflow
        · cases overflow

/-- A RecursionError needs more characters than the limit, by induction on it: every level has
its bracket.
-/
theorem value_bounded (limit : Nat) : Bounded limit (value limit) := by
  induction limit with
  | zero =>
      intro s overflow
      cases s with
      | nil => cases overflow
      | cons c rest => simp
  | succ limit ih =>
      intro s overflow
      have shortens := value_shortens limit
      cases s with
      | nil => cases overflow
      | cons c rest =>
          simp only [value, scanOnce] at overflow
          rw [List.length_cons]
          split at overflow
          · split at overflow <;> cases overflow
          · split at overflow
            · have inner : object (value limit) rest = .error .recursion := by
                cases parsed : object (value limit) rest with
                | error error => rw [parsed] at overflow; cases overflow; rfl
                | ok found => rw [parsed] at overflow; cases overflow
              unfold object at inner
              split at inner
              · cases inner
              · have longer := members_bounded shortens ih _ _ inner
                have skipped := skip_length rest
                omega
            · split at overflow
              · have inner : array (value limit) rest = .error .recursion := by
                  cases parsed : array (value limit) rest with
                  | error error => rw [parsed] at overflow; cases overflow; rfl
                  | ok found => rw [parsed] at overflow; cases overflow
                unfold array at inner
                split at inner
                · cases inner
                · have longer := items_bounded shortens ih _ _ inner
                  have skipped := skip_length rest
                  omega
              · exact absurd overflow (scalar_not_recursion _)

theorem items_extends (extension : Extends p q) (fuel : Nat)
    : Extends (items p fuel) (items q fuel) := by
  induction fuel with
  | zero =>
      intro s _
      rfl
  | succ fuel ih =>
      intro s fine
      unfold items at fine ⊢
      have first : p s ≠ .error .recursion := by
        intro overflow
        simp [overflow] at fine
      rw [extension s first]
      cases parsed : p s with
      | error error => rfl
      | ok read =>
          obtain ⟨value, after⟩ := read
          rw [parsed] at fine
          dsimp only at fine ⊢
          split
          · rfl
          · rename_i left comma
            rw [comma] at fine
            have more : items p fuel (skip left) ≠ .error .recursion := by
              intro overflow
              simp [overflow] at fine
            rw [ih _ more]
          · rfl

theorem member_extends (extension : Extends p q) : Extends (member p) (member q) := by
  intro s fine
  unfold member at fine ⊢
  split
  · rename_i start
    split
    · rfl
    · rename_i key after quoted
      simp only [quoted] at fine
      split
      · rename_i left colon
        simp only [colon] at fine
        have inner : p (skip left) ≠ .error .recursion := by
          intro overflow
          simp [overflow] at fine
        rw [extension _ inner]
      · rfl
  · rfl

theorem members_extends (extension : Extends p q) (fuel : Nat)
    : Extends (members p fuel) (members q fuel) := by
  induction fuel with
  | zero =>
      intro s _
      rfl
  | succ fuel ih =>
      intro s fine
      unfold members at fine ⊢
      have first : member p s ≠ .error .recursion := by
        intro overflow
        simp [overflow] at fine
      rw [member_extends extension s first]
      cases parsed : member p s with
      | error error => rfl
      | ok read =>
          obtain ⟨entry, after⟩ := read
          rw [parsed] at fine
          dsimp only at fine ⊢
          split
          · rfl
          · rename_i left comma
            rw [comma] at fine
            have more : members p fuel (skip left) ≠ .error .recursion := by
              intro overflow
              simp [overflow] at fine
            rw [ih _ more]
          · rfl

theorem array_extends (extension : Extends p q) : Extends (array p) (array q) := by
  intro s fine
  unfold array at fine ⊢
  split
  · rfl
  · rename_i start other
    have inner : items p (skip s).length (skip s) ≠ .error .recursion := by
      intro overflow
      apply fine
      split
      · rename_i left bracket
        exact absurd bracket (other left)
      · exact overflow
    exact items_extends extension _ _ inner

theorem object_extends (extension : Extends p q) : Extends (object p) (object q) := by
  intro s fine
  unfold object at fine ⊢
  split
  · rfl
  · rename_i start other
    have inner : members p (skip s).length (skip s) ≠ .error .recursion := by
      intro overflow
      apply fine
      split
      · rename_i left brace
        exact absurd brace (other left)
      · exact overflow
    exact members_extends extension _ _ inner

theorem scanOnce_none_extends (q : Parser Value)
    : Extends (scanOnce none) (scanOnce (some q)) := by
  intro s fine
  cases s with
  | nil => rfl
  | cons c rest =>
      simp only [scanOnce] at fine ⊢
      by_cases brace : c = 123
      · simp [brace] at fine
      · by_cases bracket : c = 91
        · simp [bracket] at fine
        · simp [brace, bracket]

theorem scanOnce_extends (extension : Extends p q)
    : Extends (scanOnce (some p)) (scanOnce (some q)) := by
  intro s fine
  cases s with
  | nil => rfl
  | cons c rest =>
      simp only [scanOnce] at fine ⊢
      by_cases quote : c = 34
      · simp [quote]
      · by_cases brace : c = 123
        · have inner : object p rest ≠ .error .recursion := by
            intro overflow
            simp [brace, overflow, Except.map] at fine
          rw [object_extends extension _ inner]
          simp [brace]
        · by_cases bracket : c = 91
          · have inner : array p rest ≠ .error .recursion := by
              intro overflow
              simp [bracket, overflow, Except.map] at fine
            rw [array_extends extension _ inner]
            simp [bracket]
          · simp [quote, brace, bracket]

/-- A higher limit changes only a RecursionError, by induction on the limit. -/
theorem value_extends (limit : Nat) : Extends (value limit) (value (limit + 1)) := by
  induction limit with
  | zero => exact scanOnce_none_extends (value 0)
  | succ limit ih => exact scanOnce_extends ih

theorem value_extends_le {more : Nat} (le : limit ≤ more) : Extends (value limit) (value more) := by
  induction le with
  | refl =>
      intro s _
      rfl
  | @step more le ih =>
      intro s fine
      have same := ih s fine
      exact (value_extends more s (same ▸ fine)).trans same

/-- A result that is a RecursionError. -/
def overflows {α : Type} : Except Error α → Bool
  | .error .recursion => true
  | _ => false

theorem overflows_iff {α : Type} {read : Except Error α}
    : overflows read = true ↔ read = .error .recursion := by
  rcases read with (_ | _) | _ <;> simp [overflows]

/-- Only the nesting of its value ends a text in a RecursionError. -/
theorem parse_recursion : parse limit s = .error .recursion
    ↔ value limit (skip s) = .error .recursion := by
  unfold parse
  cases parsed : value limit (skip s) with
  | error error => simp
  | ok read =>
      obtain ⟨value, rest⟩ := read
      by_cases blank : skip rest = [] <;> simp [blank]

theorem parse_extends_le {more : Nat} (le : limit ≤ more)
    (fine : parse limit s ≠ .error .recursion)
    : parse more s = parse limit s := by
  have inner : value limit (skip s) ≠ .error .recursion := fine ∘ parse_recursion.mpr
  unfold parse
  rw [value_extends_le le _ inner]

/-- A limit of the length of the text is high enough. -/
theorem exists_limit (s : Text) : ∃ limit, overflows (parse limit s) = false := by
  refine ⟨(skip s).length, ?_⟩
  rw [Bool.eq_false_iff, Ne, overflows_iff, parse_recursion]
  intro overflow
  exact absurd (value_bounded _ _ overflow) (Nat.lt_irrefl _)

/-- How deep a text nests arrays and objects until it ends or is found invalid: the least limit
with which it can be read.
-/
def nesting (s : Text) : Nat := Nat.find (exists_limit s)

/-- A text ends in a RecursionError exactly where it nests deeper than the limit. -/
theorem parse_recursion_iff : parse limit s = .error .recursion ↔ limit < nesting s := by
  constructor
  · intro overflow
    by_contra within
    have least := Nat.find_spec (exists_limit s)
    have fine : parse (nesting s) s ≠ .error .recursion := by
      rw [Ne, ← overflows_iff, Bool.not_eq_true]
      exact least
    rw [parse_extends_le (Nat.le_of_not_lt within) fine] at overflow
    exact fine overflow
  · intro deeper
    have overflow := Nat.find_min (exists_limit s) deeper
    rwa [Bool.not_eq_false, overflows_iff] at overflow

/-- How deep a byte string nests; one that is no text does not. -/
def nestingOf (body : List UInt8) : Nat :=
  match decodeBytes (body.map UInt8.toNat) with
  | none => 0
  | some s => nesting s

theorem loads_recursion_iff {body : List UInt8}
    : loads limit body = .error .recursion ↔ limit < nestingOf body := by
  unfold loads nestingOf
  cases decodeBytes (body.map UInt8.toNat) with
  | none => simp
  | some s => exact parse_recursion_iff

/-- What a byte string says, whatever its nesting. -/
def decodes (body : List UInt8) : Option Value :=
  match loads (nestingOf body) body with
  | .ok value => some value
  | .error _ => none

/-- Within the limit `json.loads` reads what the byte string says. -/
theorem loads_of_nesting {body : List UInt8} (within : nestingOf body ≤ limit)
    : loads limit body = match decodes body with
      | some value => .ok value
      | none => .error .decode := by
  have fine : loads (nestingOf body) body ≠ .error .recursion := by
    rw [Ne, loads_recursion_iff]
    exact Nat.lt_irrefl _
  have same : loads limit body = loads (nestingOf body) body := by
    unfold loads nestingOf at *
    cases text : decodeBytes (body.map UInt8.toNat) with
    | none => rfl
    | some s =>
        rw [text] at fine within
        exact parse_extends_le within fine
  rw [same, decodes]
  rcases result : loads (nestingOf body) body with error | value
  · cases error with
    | decode => rfl
    | recursion => exact absurd result fine
  · rfl

/-- What `json.loads` reads within some limit is what the byte string says. -/
theorem decodes_of_loads {body : List UInt8} {value : Value} (read : loads limit body = .ok value)
    : nestingOf body ≤ limit ∧ decodes body = some value := by
  have within : nestingOf body ≤ limit := by
    by_contra deeper
    rw [loads_recursion_iff.mpr (Nat.lt_of_not_le deeper)] at read
    cases read
  rw [loads_of_nesting within] at read
  refine ⟨within, ?_⟩
  cases said : decodes body with
  | none => simp [said] at read
  | some value =>
      simp only [said, Except.ok.injEq] at read
      rw [read]

/-- Brackets that only open nest as deep as there are brackets, by induction on the limit. -/
theorem value_brackets {n : Nat} (deep : limit < n)
    : value limit (List.replicate n 91) = .error .recursion := by
  induction limit generalizing n with
  | zero =>
      cases n with
      | zero => omega
      | succ n => rfl
  | succ limit ih =>
      cases n with
      | zero => omega
      | succ n =>
          have inner := ih (show limit < n by omega)
          cases n with
          | zero => omega
          | succ n =>
              have solid : skip (List.replicate (n + 1) 91) = List.replicate (n + 1) 91 := rfl
              have opened : array (value limit) (List.replicate (n + 1) 91) = .error .recursion := by
                unfold array
                rw [solid]
                simp only [List.replicate_succ, List.length_cons, items] at inner ⊢
                rw [inner]
              rw [List.replicate_succ]
              simp [value, scanOnce, opened, Except.map]

end Json
