import Transcriber.Library.Strings

/-! UUIDs as Python's `uuid` module reads and writes them. -/

namespace UuidText

open Json Strings

/-- The digits in groups of 8, 4, 4, 4 and 12. -/
def hyphenate (hex : Text) : Text :=
  hex.take 8 ++ [45] ++ (hex.drop 8).take 4 ++ [45] ++ (hex.drop 12).take 4 ++ [45]
    ++ (hex.drop 16).take 4 ++ [45] ++ hex.drop 20

/-- The 32 digits that `uuid.UUID(s)` looks for. -/
def digits (s : Text) : Text :=
  (strip (fun c => c = 123 || c = 125)
    (remove (text "uuid:") 0 (remove (text "urn:") 0 s))).filter (· ≠ 45)

/-- The number of `uuid.UUID(s)`, where it raises no ValueError. -/
def parse (s : Text) : Option Nat :=
  if (digits s).length ≠ 32 then
    none
  else
    (int16 (digits s)).bind (fun n => if 0 ≤ n && n < 2 ^ 128 then some n.toNat else none)

/-- `str` of a UUID. -/
def format (n : Nat) : Text := hyphenate (hexDigits 32 n)

/-- A canonical UUID: 32 lowercase hexadecimal digits with hyphens between the groups. -/
def Canonical (s : Text) : Prop :=
  ∃ hex : Text, hex.length = 32 ∧ (∀ c ∈ hex, isHex c = true) ∧ s = hyphenate hex

variable {s hex : Text}

theorem format_canonical (n : Nat) : Canonical (format n) :=
  ⟨_, length_hexDigits 32 n, hexDigits_hex 32 n, rfl⟩

theorem mem_hyphenate {c : Nat} (member : c ∈ hyphenate hex) : c = 45 ∨ c ∈ hex := by
  simp only [hyphenate, List.mem_append, List.mem_singleton] at member
  rcases member with ((((((((digit | hyphen) | digit) | hyphen) | digit) | hyphen) | digit)
    | hyphen) | digit)
  all_goals first
    | exact .inl hyphen
    | exact .inr (List.mem_of_mem_take digit)
    | exact .inr (List.mem_of_mem_drop digit)
    | exact .inr (List.mem_of_mem_drop (List.mem_of_mem_take digit))

/-- The characters of a canonical UUID are digits and hyphens. -/
theorem Canonical.chars (canonical : Canonical s) {c : Nat} (member : c ∈ s)
    : c = 45 ∨ (48 ≤ c ∧ c ≤ 57) ∨ (97 ≤ c ∧ c ≤ 102) := by
  obtain ⟨hex, _, digits, rfl⟩ := canonical
  rcases mem_hyphenate member with hyphen | digit
  · exact .inl hyphen
  · rcases isHex_cases (digits c digit) with ⟨low, high, _⟩ | ⟨low, high, _⟩
    · exact .inr (.inl ⟨low, high⟩)
    · exact .inr (.inr ⟨low, high⟩)

theorem Canonical.plain (canonical : Canonical s) : Plain s := by
  intro c member
  have char := canonical.chars member
  simp only [isPlain, Bool.and_eq_true, decide_eq_true_eq]
  omega

theorem Canonical.length (canonical : Canonical s) : s.length = 36 := by
  obtain ⟨hex, long, _, rfl⟩ := canonical
  simp [hyphenate, long]

/-- Without its hyphens a canonical UUID is its digits. -/
theorem filter_hyphenate (digits : ∀ c ∈ hex, isHex c = true)
    : (hyphenate hex).filter (· ≠ 45) = hex := by
  have keep (part : Text) (sub : ∀ c ∈ part, c ∈ hex)
      : part.filter (· ≠ 45) = part := by
    rw [List.filter_eq_self]
    intro c member
    have digit := isHex_cases (digits c (sub c member))
    simp only [ne_eq, decide_not, Bool.not_eq_true', decide_eq_false_iff_not]
    omega
  have hyphen : [45].filter (fun c : Nat => decide (c ≠ 45)) = [] := rfl
  have groups : hex.take 8 ++ (hex.drop 8).take 4 ++ (hex.drop 12).take 4
      ++ (hex.drop 16).take 4 ++ hex.drop 20 = hex := by
    have second : hex.take 8 ++ (hex.drop 8).take 4 = hex.take 12 := List.take_add.symm
    have third : hex.take 12 ++ (hex.drop 12).take 4 = hex.take 16 := List.take_add.symm
    have fourth : hex.take 16 ++ (hex.drop 16).take 4 = hex.take 20 := List.take_add.symm
    rw [second, third, fourth, List.take_append_drop]
  simp only [hyphenate, List.filter_append, hyphen, List.append_nil]
  rw [keep _ (fun c => List.mem_of_mem_take), keep _ (fun c member =>
      List.mem_of_mem_drop (List.mem_of_mem_take member)), keep _ (fun c member =>
      List.mem_of_mem_drop (List.mem_of_mem_take member)), keep _ (fun c member =>
      List.mem_of_mem_drop (List.mem_of_mem_take member)), keep _ (fun c =>
      List.mem_of_mem_drop)]
  exact groups

theorem digits_hyphenate (hexadecimal : ∀ c ∈ hex, isHex c = true)
    : digits (hyphenate hex) = hex := by
  have chars : ∀ c ∈ hyphenate hex, c = 45 ∨ isHex c = true := by
    intro c member
    rcases mem_hyphenate member with hyphen | digit
    · exact .inl hyphen
    · exact .inr (hexadecimal c digit)
  have absent : 117 ∉ hyphenate hex := by
    intro member
    rcases chars 117 member with hyphen | digit
    · omega
    · cases digit
  have braces : ∀ c ∈ hyphenate hex, (c = 123 || c = 125 : Bool) = false := by
    intro c member
    rcases chars c member with rfl | digit
    · rfl
    · rcases isHex_cases digit with ⟨_, _, _⟩ | ⟨_, _, _⟩ <;> simp <;> omega
  have urn : (text "urn:").head? = some 117 := by decide +kernel
  have uuid : (text "uuid:").head? = some 117 := by decide +kernel
  rw [digits, remove_absent urn absent, remove_absent uuid absent, strip_none braces]
  exact filter_hyphenate hexadecimal

/-- A string is the `str` of the UUID that it gives exactly where it is canonical. -/
theorem format_parse_iff : (parse s).map format = some s ↔ Canonical s := by
  constructor
  · intro same
    obtain ⟨n, _, rfl⟩ := Option.map_eq_some_iff.mp same
    exact format_canonical n
  · intro canonical
    obtain ⟨hex, long, hexadecimal, rfl⟩ := canonical
    obtain ⟨back, bound⟩ := hexDigits_ofHex hexadecimal
    rw [long] at back bound
    have some : hex ≠ [] := by
      intro none
      rw [none] at long
      cases long
    have small : ofHex hex < 2 ^ 128 := by simpa using bound
    have upper : (ofHex hex : Int) < 2 ^ 128 := by exact_mod_cast small
    have range : (0 ≤ (ofHex hex : Int) && (ofHex hex : Int) < 2 ^ 128 : Bool) = true := by
      rw [decide_eq_true upper, decide_eq_true (Int.natCast_nonneg _), Bool.and_self]
    have value : parse (hyphenate hex) = .some (ofHex hex) := by
      rw [parse, digits_hyphenate hexadecimal, if_neg (by simp [long]),
        int16_hex hexadecimal some, Option.bind_some, if_pos range, Int.toNat_natCast]
    rw [value, Option.map_some, format, back]

end UuidText
