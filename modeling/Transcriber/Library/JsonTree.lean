import Transcriber.Library.JsonDumps

/-! Nested values as `json.dumps` writes them, with and without `ensure_ascii`, and that `json.loads`
reads them back. Numbers are left to the flat objects.
-/

namespace Json

-----------------------------------------------------------------------------------------
-- Writing
-----------------------------------------------------------------------------------------

/-- A value without numbers. -/
inductive Tree
  | null
  | bool (value : Bool)
  | str (value : Text)
  | list (items : List Tree)
  | dict (entries : List (Text × Tree))

/-- A character of a string; without `ensure_ascii` only quotes, backslashes and controls are
escaped.
-/
def escapeChar (ascii : Bool) (c : Nat) : Text := if !ascii && 126 < c then [c] else escape c

def writeString (ascii : Bool) (s : Text) : Text := 34 :: s.flatMap (escapeChar ascii) ++ [34]

namespace Tree

mutual

/-- `json.dumps` -/
def dumps (ascii : Bool) : Tree → Text
  | .null => text "null"
  | .bool value => text (if value then "true" else "false")
  | .str value => writeString ascii value
  | .list items => 91 :: dumpsItems ascii items ++ [93]
  | .dict entries => 123 :: dumpsEntries ascii entries ++ [125]

def dumpsItems (ascii : Bool) : List Tree → Text
  | [] => []
  | [item] => dumps ascii item
  | item :: rest => dumps ascii item ++ [44, 32] ++ dumpsItems ascii rest

def dumpsEntry (ascii : Bool) : Text × Tree → Text
  | (key, item) => writeString ascii key ++ [58, 32] ++ dumps ascii item

def dumpsEntries (ascii : Bool) : List (Text × Tree) → Text
  | [] => []
  | [entry] => dumpsEntry ascii entry
  | entry :: rest => dumpsEntry ascii entry ++ [44, 32] ++ dumpsEntries ascii rest

end

mutual

/-- What `json.loads` makes of it. -/
def value : Tree → Value
  | .null => .null
  | .bool value => .bool value
  | .str value => .str value
  | .list items => .list (values items)
  | .dict entries => .dict (members entries)

def values : List Tree → List Value
  | [] => []
  | item :: rest => value item :: values rest

def member : Text × Tree → Text × Value
  | (key, item) => (key, value item)

def members : List (Text × Tree) → List (Text × Value)
  | [] => []
  | entry :: rest => member entry :: members rest

end

mutual

/-- How deep its arrays and objects are nested. -/
def depth : Tree → Nat
  | .null | .bool _ | .str _ => 0
  | .list items => depthItems items + 1
  | .dict entries => depthEntries entries + 1

def depthItems : List Tree → Nat
  | [] => 0
  | item :: rest => max (depth item) (depthItems rest)

def depthEntry : Text × Tree → Nat
  | (_, item) => depth item

def depthEntries : List (Text × Tree) → Nat
  | [] => 0
  | entry :: rest => max (depthEntry entry) (depthEntries rest)

end

end Tree

-----------------------------------------------------------------------------------------
-- Strings
-----------------------------------------------------------------------------------------

/-- A string of code points in which no two characters are the halves of a surrogate pair: these
two would be read as one character.
-/
def Unpaired (s : Text) : Prop :=
  (∀ c ∈ s, c < 0x110000) ∧ s.IsChain (fun c d => (isHigh c && isLow d) = false)

instance (s : Text) : Decidable (Unpaired s) := inferInstanceAs (Decidable (_ ∧ _))

variable {s rest : Text} {ascii : Bool}

/-- The code units that are read of a character. -/
def unitsOf (ascii : Bool) (c : Nat) : List (Bool × Nat) :=
  if c = 34 || c = 92 || c = 10 || c = 13 || c = 9 || c = 12 || c = 8 || (32 ≤ c && c ≤ 126)
      || (!ascii && 126 < c) then
    [(false, c)]
  else if c < 0x10000 then
    [(true, c)]
  else
    [(true, 0xD800 + (c - 0x10000) / 1024), (true, 0xDC00 + (c - 0x10000) % 1024)]

theorem hexDigit_hexChar {digit : Nat} (small : digit < 16)
    : hexDigit (hexChar digit) = some digit := by
  unfold hexChar
  split
  · rename_i decimal
    have low : 48 ≤ 48 + digit ∧ 48 + digit ≤ 57 := by omega
    simp [hexDigit, low]
  · rename_i letter
    have apart : ¬87 + digit ≤ 57 := by omega
    have low : 97 ≤ 87 + digit ∧ 87 + digit ≤ 102 := by omega
    simp [hexDigit, apart, low]

/-- Four digits are read back. -/
theorem hexUnit_hexChar {unit : Nat} (small : unit < 0x10000)
    : hexUnit (hexChar (unit / 4096)) (hexChar (unit / 256 % 16)) (hexChar (unit / 16 % 16))
        (hexChar (unit % 16))
      = some unit := by
  have first : unit / 4096 < 16 := by omega
  have sum : ((unit / 4096 * 16 + unit / 256 % 16) * 16 + unit / 16 % 16) * 16 + unit % 16
      = unit := by
    omega
  simp [hexUnit, hexDigit_hexChar, first, Nat.mod_lt, sum]

theorem scanUnits_escapeUnit {unit : Nat} (small : unit < 0x10000) (rest : Text)
    : scanUnits (escapeUnit unit ++ rest)
      = (scanUnits rest).map (fun scanned => ((true, unit) :: scanned.1, scanned.2)) := by
  rw [escapeUnit, scanUnits.eq_def]
  simp only [List.cons_append, List.nil_append, hexUnit_hexChar small]
  cases scanUnits rest <;> simp

/-- A character that stands for itself. -/
theorem scanUnits_raw {c : Nat} (printed : 32 ≤ c) (quote : c ≠ 34) (backslash : c ≠ 92)
    (rest : Text)
    : scanUnits (c :: rest)
      = (scanUnits rest).map (fun scanned => ((false, c) :: scanned.1, scanned.2)) := by
  have control : ¬c < 32 := by omega
  rw [scanUnits.eq_def]
  simp only [quote, backslash, control, if_false]
  cases scanUnits rest <;> simp

/-- The other escapes. -/
theorem scanUnits_escaped {e c : Nat} (escaped : unescape e = some c) (apart : e ≠ 117)
    (rest : Text)
    : scanUnits (92 :: e :: rest)
      = (scanUnits rest).map (fun scanned => ((false, c) :: scanned.1, scanned.2)) := by
  rw [scanUnits.eq_def]
  simp only [Nat.reduceEqDiff, if_false, if_true]
  split
  · rename_i same
    exact absurd (List.cons.inj same).1 apart
  · rename_i same
    obtain ⟨rfl, rfl⟩ := List.cons.inj same
    rw [escaped]
    cases scanUnits rest <;> simp
  · rename_i same
    cases same

/-- A written character is read as its units, by cases on how it is written. -/
theorem scanUnits_escapeChar {c : Nat} (small : c < 0x110000) (rest : Text)
    : scanUnits (escapeChar ascii c ++ rest)
      = (scanUnits rest).map (fun scanned => (unitsOf ascii c ++ scanned.1, scanned.2)) := by
  unfold escapeChar
  split
  · rename_i raw
    have large : 126 < c := by simp_all
    rw [List.singleton_append, scanUnits_raw (by omega) (by omega) (by omega)]
    simp [unitsOf, raw]
  rename_i encoded
  unfold escape
  split
  · rename_i own
    have cases_ : c = 34 ∨ c = 92 := by simpa using own
    rcases cases_ with rfl | rfl
    all_goals
      rw [List.cons_append, List.singleton_append, scanUnits_escaped rfl (by decide)]
      simp [unitsOf]
  rename_i plain
  -- the five controls with escapes of their own
  iterate 5
    split
    · subst c
      rw [List.cons_append, List.singleton_append, scanUnits_escaped rfl (by decide)]
      simp [unitsOf]
  have apart : c ≠ 34 ∧ c ≠ 92 := by simpa using plain
  split
  · rename_i printed
    have low : 32 ≤ c := by simp_all
    rw [List.singleton_append, scanUnits_raw low apart.1 apart.2]
    simp [unitsOf, printed]
  have units
      : ¬(c = 34 || c = 92 || c = 10 || c = 13 || c = 9 || c = 12 || c = 8
          || (32 ≤ c && c ≤ 126) || (!ascii && 126 < c)) = true := by
    simp_all
  split
  · rename_i short
    rw [scanUnits_escapeUnit short, unitsOf, if_neg units, if_pos short]
    simp
  · rename_i long
    have high : 0xD800 + (c - 0x10000) / 1024 < 0x10000 := by omega
    have low : 0xDC00 + (c - 0x10000) % 1024 < 0x10000 := by omega
    rw [List.append_assoc, scanUnits_escapeUnit high, scanUnits_escapeUnit low, unitsOf,
      if_neg units, if_neg long]
    cases scanUnits rest <;> simp

/-- The units of a character start with an escaped half of a pair only where they are one. -/
theorem unitsOf_start (ascii : Bool) {c : Nat} (small : c < 0x110000)
    : ∃ escaped unit more,
        unitsOf ascii c = (escaped, unit) :: more ∧ (isLow unit = true → isLow c = true) := by
  unfold unitsOf
  split
  · exact ⟨_, _, _, rfl, id⟩
  split
  · exact ⟨_, _, _, rfl, id⟩
  · refine ⟨_, _, _, rfl, ?_⟩
    simp only [isLow, Bool.and_eq_true, decide_eq_true_eq]
    omega

theorem join_cons {escaped : Bool} {unit : Nat} {units : List (Bool × Nat)}
    (apart
      : ∀ low more, units = (true, low) :: more → (isHigh unit && isLow low) = false)
    : join ((escaped, unit) :: units) = unit :: join units := by
  rw [join]
  split
  · rename_i low head
    obtain ⟨more, rfl⟩ := List.head?_eq_some_iff.mp head
    have single := apart low more rfl
    simp_all
  · rfl

/-- The halves of a pair. -/
theorem join_pair {high low : Nat} {units : List (Bool × Nat)} (small : high < 1024)
    (rest : low < 1024)
    : join ((true, 0xD800 + high) :: (true, 0xDC00 + low) :: units)
      = (0x10000 + (0xD800 + high - 0xD800) * 1024 + (0xDC00 + low - 0xDC00)) :: join units := by
  have first : isHigh (0xD800 + high) = true := by
    simp only [isHigh, Bool.and_eq_true, decide_eq_true_eq]
    omega
  have second : isLow (0xDC00 + low) = true := by
    simp only [isLow, Bool.and_eq_true, decide_eq_true_eq]
    omega
  have alone : isHigh (0xDC00 + low) = false := by
    simp only [isHigh, Bool.and_eq_false_iff, decide_eq_false_iff_not]
    omega
  have after : join ((true, 0xDC00 + low) :: units) = (0xDC00 + low) :: join units :=
    join_cons (by simp [alone])
  rw [join]
  simp only [List.head?_cons, first, second, Bool.and_self, if_true, after, List.tail_cons]

/-- The units of a string are joined to it, by induction on it. -/
theorem join_units (unpaired : Unpaired s) : join (s.flatMap (unitsOf ascii)) = s := by
  induction s with
  | nil => rfl
  | cons c rest ih =>
      obtain ⟨small, chain⟩ := unpaired
      have left := ih ⟨fun d member => small d (List.mem_cons_of_mem _ member), chain.tail⟩
      have own := small c List.mem_cons_self
      -- what follows a half that stands alone is not its other half
      have next : ∀ low more, rest.flatMap (unitsOf ascii) = (true, low) :: more
          → (isHigh c && isLow low) = false := by
        intro low more same
        cases rest with
        | nil => cases same
        | cons d rest =>
            obtain ⟨escaped, unit, units, starts, halves⟩ :=
              unitsOf_start ascii (small d (by simp))
            rw [List.flatMap_cons, starts, List.cons_append] at same
            cases same
            have apart := (List.isChain_cons_cons.mp chain).1
            cases high : isHigh c with
            | false => rfl
            | true =>
                simp only [high, Bool.true_and] at apart ⊢
                exact Bool.eq_false_of_not_eq_true (fun isLow => by simp [halves isLow] at apart)
      rw [List.flatMap_cons]
      generalize rest.flatMap (unitsOf ascii) = units at left next ⊢
      unfold unitsOf
      split
      · rw [List.singleton_append, join_cons next, left]
      split
      · rw [List.singleton_append, join_cons next, left]
      · rename_i long
        have sum
            : 0x10000 + (0xD800 + (c - 0x10000) / 1024 - 0xD800) * 1024
                + (0xDC00 + (c - 0x10000) % 1024 - 0xDC00)
              = c := by
          omega
        rw [List.cons_append, List.singleton_append, join_pair (by omega) (by omega), sum, left]

theorem scanUnits_writeString (small : ∀ c ∈ s, c < 0x110000) (rest : Text)
    : scanUnits (s.flatMap (escapeChar ascii) ++ 34 :: rest)
      = some (s.flatMap (unitsOf ascii), rest) := by
  induction s with
  | nil => rw [List.flatMap_nil, List.nil_append, scanUnits.eq_def]; rfl
  | cons c more ih =>
      rw [List.flatMap_cons, List.append_assoc, scanUnits_escapeChar (small c List.mem_cons_self),
        ih (fun d member => small d (List.mem_cons_of_mem _ member))]
      rfl

/-- A string is read up to its closing quote. -/
theorem scanString_writeString (unpaired : Unpaired s) (rest : Text)
    : scanString (s.flatMap (escapeChar ascii) ++ 34 :: rest) = some (s, rest) := by
  rw [scanString, scanUnits_writeString unpaired.1]
  simp [join_units unpaired]

-----------------------------------------------------------------------------------------
-- Reading values
-----------------------------------------------------------------------------------------

namespace Tree

mutual

/-- Every string and key in it can be read back. -/
def Unpaired : Tree → Prop
  | .null | .bool _ => True
  | .str value => Json.Unpaired value
  | .list items => UnpairedItems items
  | .dict entries => UnpairedEntries entries

def UnpairedItems : List Tree → Prop
  | [] => True
  | item :: rest => Unpaired item ∧ UnpairedItems rest

def UnpairedEntry : Text × Tree → Prop
  | (key, item) => Json.Unpaired key ∧ Unpaired item

def UnpairedEntries : List (Text × Tree) → Prop
  | [] => True
  | entry :: rest => UnpairedEntry entry ∧ UnpairedEntries rest

end

/-- A value starts with no blank and no closing bracket. -/
theorem dumps_start (ascii : Bool) (tree : Tree)
    : ∃ c after, tree.dumps ascii = c :: after ∧ isSpace c = false ∧ c ≠ 93 := by
  have null : text "null" = [110, 117, 108, 108] := by decide +kernel
  have yes : text "true" = [116, 114, 117, 101] := by decide +kernel
  have no : text "false" = [102, 97, 108, 115, 101] := by decide +kernel
  cases tree with
  | null => exact ⟨110, _, null, rfl, by decide⟩
  | bool value =>
      cases value
      · exact ⟨102, _, no, rfl, by decide⟩
      · exact ⟨116, _, yes, rfl, by decide⟩
  | str | list | dict => exact ⟨_, _, rfl, rfl, by decide⟩

theorem skip_dumps (tree : Tree) (rest : Text)
    : skip (tree.dumps ascii ++ rest) = tree.dumps ascii ++ rest := by
  obtain ⟨c, after, starts, solid, _⟩ := tree.dumps_start ascii
  rw [starts]
  simp [skip, solid]

theorem dumpsItems_cons (item : Tree) (more : List Tree)
    : dumpsItems ascii (item :: more)
      = item.dumps ascii
        ++ (if more = [] then [] else [44, 32] ++ dumpsItems ascii more) := by
  cases more with
  | nil => simp [dumpsItems]
  | cons => simp [dumpsItems]

theorem dumpsEntries_cons (entry : Text × Tree) (more : List (Text × Tree))
    : dumpsEntries ascii (entry :: more)
      = dumpsEntry ascii entry
        ++ (if more = [] then [] else [44, 32] ++ dumpsEntries ascii more) := by
  cases more with
  | nil => simp [dumpsEntries]
  | cons => simp [dumpsEntries]

theorem dumpsEntry_start (ascii : Bool) (entry : Text × Tree)
    : ∃ after, dumpsEntry ascii entry = 34 :: after := by
  obtain ⟨key, item⟩ := entry
  exact ⟨_, rfl⟩

theorem dumpsItems_length (ascii : Bool) (items : List Tree)
    : items.length ≤ (dumpsItems ascii items).length := by
  induction items with
  | nil => simp
  | cons item more ih =>
      obtain ⟨c, after, starts, _⟩ := item.dumps_start ascii
      rw [dumpsItems_cons, starts]
      cases more with
      | nil => simp
      | cons =>
          simp only [reduceCtorEq, if_false, List.length_append, List.length_cons] at ih ⊢
          omega

theorem dumpsEntries_length (ascii : Bool) (entries : List (Text × Tree))
    : entries.length ≤ (dumpsEntries ascii entries).length := by
  induction entries with
  | nil => simp
  | cons entry more ih =>
      obtain ⟨after, starts⟩ := dumpsEntry_start ascii entry
      rw [dumpsEntries_cons, starts]
      cases more with
      | nil => simp
      | cons =>
          simp only [reduceCtorEq, if_false, List.length_append, List.length_cons] at ih ⊢
          omega

theorem scalar_null (rest : Text) : scalar (text "null" ++ rest) = .ok (.null, rest) := by
  have null : text "null" = [110, 117, 108, 108] := by decide +kernel
  simp [scalar, constants, null, List.isPrefixOf]

/-- An array that does not close at once has items. -/
theorem array_solid {p : Parser Value} {c : Nat} {after : Text} (solid : isSpace c = false)
    (open_ : c ≠ 93)
    : array p (c :: after) = Json.items p (c :: after).length (c :: after) := by
  have blank : skip (c :: after) = c :: after := by simp [skip, solid]
  unfold array
  rw [blank]
  split
  · rename_i same
    exact absurd (List.cons.inj same).1 open_
  · rfl

mutual

/-- What is written is read back where its depth is within the limit, by induction on the tree. -/
theorem value_dumps {limit : Nat} (tree : Tree) (unpaired : tree.Unpaired) (within : tree.depth ≤ limit)
    (rest : Text)
    : Json.value limit (tree.dumps ascii ++ rest) = .ok (tree.value, rest) := by
  have null : text "null" = [110, 117, 108, 108] := by decide +kernel
  have yes : text "true" = [116, 114, 117, 101] := by decide +kernel
  have no : text "false" = [102, 97, 108, 115, 101] := by decide +kernel
  have scan {start : Text} {value : Value}
      (found : ∀ nested, scanOnce nested start = .ok (value, rest))
      : Json.value limit start = .ok (value, rest) := by
    cases limit with
    | zero => exact found none
    | succ limit => exact found _
  match tree with
  | .null =>
      have read := scalar_null rest
      refine scan (fun nested => ?_)
      simp_all [dumps, scanOnce, value]
  | .bool flag =>
      have read := scalar_bool flag rest
      refine scan (fun nested => ?_)
      cases flag <;> simp_all [dumps, scanOnce, value]
  | .str s =>
      have read : scanString (s.flatMap (escapeChar ascii) ++ 34 :: rest) = some (s, rest) :=
        scanString_writeString unpaired rest
      refine scan (fun nested => ?_)
      simp [dumps, writeString, scanOnce, read, value]
  | .list items =>
      cases limit with
      | zero => simp [depth] at within
      | succ limit =>
          have layout : (dumps ascii (.list items)) ++ rest
              = 91 :: (dumpsItems ascii items ++ 93 :: rest) := by
            simp [dumps]
          have read : array (Json.value limit) (dumpsItems ascii items ++ 93 :: rest)
              = .ok (values items, rest) := by
            match items with
            | [] => rfl
            | item :: more =>
                have shallow : depthItems (item :: more) ≤ limit := by
                  simpa [depth] using within
                have enough := dumpsItems_length ascii (item :: more)
                have body := items_dumps (item :: more) (by simp) unpaired shallow rest
                  (dumpsItems ascii (item :: more) ++ 93 :: rest).length
                  (by rw [List.length_append]; omega)
                obtain ⟨c, after, starts, solid, open_⟩ := item.dumps_start ascii
                have first : dumpsItems ascii (item :: more) ++ 93 :: rest
                    = c :: (after ++ (if more = [] then [] else [44, 32] ++ dumpsItems ascii more)
                        ++ 93 :: rest) := by
                  rw [dumpsItems_cons, starts]
                  simp
                rw [first] at body ⊢
                rw [array_solid solid open_]
                exact body
          rw [layout]
          simp [Json.value, scanOnce, read, Except.map, value]
  | .dict entries =>
      cases limit with
      | zero => simp [depth] at within
      | succ limit =>
          have layout : (dumps ascii (.dict entries)) ++ rest
              = 123 :: (dumpsEntries ascii entries ++ 125 :: rest) := by
            simp [dumps]
          have read : object (Json.value limit) (dumpsEntries ascii entries ++ 125 :: rest)
              = .ok (members entries, rest) := by
            match entries with
            | [] => rfl
            | entry :: more =>
                have shallow : depthEntries (entry :: more) ≤ limit := by
                  simpa [depth] using within
                have enough := dumpsEntries_length ascii (entry :: more)
                have body := members_dumps (entry :: more) (by simp) unpaired shallow rest
                  (dumpsEntries ascii (entry :: more) ++ 125 :: rest).length
                  (by rw [List.length_append]; omega)
                obtain ⟨after, starts⟩ := dumpsEntry_start ascii entry
                have first : dumpsEntries ascii (entry :: more) ++ 125 :: rest
                    = 34 :: (after
                        ++ (if more = [] then [] else [44, 32] ++ dumpsEntries ascii more)
                        ++ 125 :: rest) := by
                  rw [dumpsEntries_cons, starts]
                  simp
                rw [first] at body ⊢
                exact body
          rw [layout]
          simp [Json.value, scanOnce, read, Except.map, value]

/-- The items of an array. -/
theorem items_dumps {limit : Nat} (items : List Tree) (some : items ≠ []) (unpaired : UnpairedItems items)
    (within : depthItems items ≤ limit) (rest : Text) (fuel : Nat)
    (enough : items.length ≤ fuel)
    : Json.items (Json.value limit) fuel (dumpsItems ascii items ++ 93 :: rest)
      = .ok (values items, rest) := by
  match items, fuel with
  | [], _ => exact absurd rfl some
  | _ :: _, 0 => simp at enough
  | item :: more, fuel + 1 =>
      have shallow : item.depth ≤ limit ∧ depthItems more ≤ limit := by
        simpa [depthItems] using within
      rw [dumpsItems_cons, List.append_assoc]
      unfold Json.items
      rw [value_dumps item unpaired.1 shallow.1]
      match more with
      | [] => simp [skip, isSpace, values]
      | next :: others =>
          have left := items_dumps (next :: others) (by simp) unpaired.2 shallow.2 rest fuel
            (by simpa using enough)
          have blank : skip (32 :: (dumpsItems ascii (next :: others) ++ 93 :: rest))
              = dumpsItems ascii (next :: others) ++ 93 :: rest := by
            rw [skip, List.dropWhile_cons_of_pos rfl, dumpsItems_cons, List.append_assoc]
            exact next.skip_dumps _
          have comma : skip (44 :: 32 :: (dumpsItems ascii (next :: others) ++ 93 :: rest))
              = 44 :: 32 :: (dumpsItems ascii (next :: others) ++ 93 :: rest) := rfl
          simp [comma, blank, left, values]

/-- The members of an object. -/
theorem members_dumps {limit : Nat} (entries : List (Text × Tree)) (some : entries ≠ [])
    (unpaired : UnpairedEntries entries) (within : depthEntries entries ≤ limit) (rest : Text)
    (fuel : Nat) (enough : entries.length ≤ fuel)
    : Json.members (Json.value limit) fuel (dumpsEntries ascii entries ++ 125 :: rest)
      = .ok (members entries, rest) := by
  match entries, fuel with
  | [], _ => exact absurd rfl some
  | _ :: _, 0 => simp at enough
  | (key, item) :: more, fuel + 1 =>
      have shallow : item.depth ≤ limit ∧ depthEntries more ≤ limit := by
        simpa [depthEntries, depthEntry] using within
      have read (after : Text)
          : Json.member (Json.value limit) (dumpsEntry ascii (key, item) ++ after)
            = .ok ((key, item.value), after) := by
        have layout : dumpsEntry ascii (key, item) ++ after
            = 34 :: (key.flatMap (escapeChar ascii)
                ++ 34 :: 58 :: 32 :: (item.dumps ascii ++ after)) := by
          simp [dumpsEntry, writeString]
        have colon : skip (58 :: 32 :: (item.dumps ascii ++ after))
            = 58 :: 32 :: (item.dumps ascii ++ after) := rfl
        have blank : skip (32 :: (item.dumps ascii ++ after)) = item.dumps ascii ++ after := by
          rw [skip, List.dropWhile_cons_of_pos rfl]
          exact item.skip_dumps _
        rw [layout]
        simp only [Json.member, scanString_writeString unpaired.1.1 _, colon, blank,
          value_dumps item unpaired.1.2 shallow.1]
      rw [dumpsEntries_cons, List.append_assoc]
      unfold Json.members
      rw [read]
      match more with
      | [] => simp [skip, isSpace, members, member]
      | next :: others =>
          have left := members_dumps (next :: others) (by simp) unpaired.2 shallow.2 rest fuel
            (by simpa using enough)
          obtain ⟨start, quote⟩ := dumpsEntry_start ascii next
          have blank : skip (32 :: (dumpsEntries ascii (next :: others) ++ 125 :: rest))
              = dumpsEntries ascii (next :: others) ++ 125 :: rest := by
            rw [skip, List.dropWhile_cons_of_pos rfl, dumpsEntries_cons, quote]
            rfl
          have comma : skip (44 :: 32 :: (dumpsEntries ascii (next :: others) ++ 125 :: rest))
              = 44 :: 32 :: (dumpsEntries ascii (next :: others) ++ 125 :: rest) := rfl
          simp [comma, blank, left, members, member]

end

/-- `json.loads` of a text reads back what `json.dumps` has written, with blanks after it. -/
theorem parse_dumps {limit : Nat} (tree : Tree) (unpaired : tree.Unpaired) (within : tree.depth ≤ limit)
    (blank : skip rest = [])
    : parse limit (tree.dumps ascii ++ rest) = .ok tree.value := by
  rw [parse, tree.skip_dumps, value_dumps tree unpaired within rest]
  simp [blank]

end Tree

-----------------------------------------------------------------------------------------
-- Characters
-----------------------------------------------------------------------------------------

/-- Written texts have no controls in them, and with `ensure_ascii` only ASCII. -/
def Printed (ascii : Bool) (s : Text) : Prop := ∀ c ∈ s, 32 ≤ c ∧ (ascii = true → c ≤ 126)

theorem Printed.append (first : Printed ascii s) (last : Printed ascii rest)
    : Printed ascii (s ++ rest) := by
  intro c member
  rcases List.mem_append.mp member with before | after
  · exact first c before
  · exact last c after

theorem Printed.isAscii (printed : Printed true s) : Ascii s := by
  intro c member
  obtain ⟨low, high⟩ := printed c member
  have bound := high rfl
  omega

theorem hexChar_printed {digit : Nat} (small : digit < 16)
    : 32 ≤ hexChar digit ∧ hexChar digit ≤ 126 := by
  unfold hexChar
  split <;> omega

theorem escapeUnit_printed {unit : Nat} (small : unit < 0x10000)
    : Printed ascii (escapeUnit unit) := by
  have first := hexChar_printed (show unit / 4096 < 16 by omega)
  have second := hexChar_printed (show unit / 256 % 16 < 16 by omega)
  have third := hexChar_printed (show unit / 16 % 16 < 16 by omega)
  have last := hexChar_printed (show unit % 16 < 16 by omega)
  intro c member
  simp only [escapeUnit, List.mem_cons, List.not_mem_nil, or_false] at member
  rcases member with rfl | rfl | rfl | rfl | rfl | rfl
  · simp
  · simp
  · exact ⟨first.1, fun _ => first.2⟩
  · exact ⟨second.1, fun _ => second.2⟩
  · exact ⟨third.1, fun _ => third.2⟩
  · exact ⟨last.1, fun _ => last.2⟩

theorem escapeChar_printed {c : Nat} (small : c < 0x110000)
    : Printed ascii (escapeChar ascii c) := by
  unfold escapeChar
  split
  · rename_i raw
    have large : 126 < c := by simp_all
    intro d member
    rw [List.mem_singleton.mp member]
    exact ⟨by omega, by simp_all⟩
  unfold escape
  split
  · rename_i own
    have cases_ : c = 34 ∨ c = 92 := by simpa using own
    rcases cases_ with rfl | rfl <;> simp [Printed]
  iterate 5
    split
    · simp [Printed]
  split
  · rename_i printed
    have bounds : 32 ≤ c ∧ c ≤ 126 := by simpa using printed
    intro d member
    rw [List.mem_singleton.mp member]
    exact ⟨bounds.1, fun _ => bounds.2⟩
  split
  · rename_i short
    exact escapeUnit_printed short
  · exact (escapeUnit_printed (by omega)).append (escapeUnit_printed (by omega))

theorem writeString_printed (small : ∀ c ∈ s, c < 0x110000)
    : Printed ascii (writeString ascii s) := by
  intro d member
  simp only [writeString, List.mem_append, List.mem_cons, List.mem_flatMap, List.not_mem_nil,
    or_false] at member
  rcases member with (rfl | ⟨c, inside, own⟩) | rfl
  · simp
  · exact escapeChar_printed (small c inside) d own
  · simp

namespace Tree

mutual

theorem dumps_printed (tree : Tree) (unpaired : tree.Unpaired)
    : Printed ascii (tree.dumps ascii) := by
  match tree with
  | .null =>
      have null : text "null" = [110, 117, 108, 108] := by decide +kernel
      simp [dumps, null, Printed]
  | .bool flag =>
      have yes : text "true" = [116, 114, 117, 101] := by decide +kernel
      have no : text "false" = [102, 97, 108, 115, 101] := by decide +kernel
      cases flag <;> simp [dumps, yes, no, Printed]
  | .str s => exact writeString_printed unpaired.1
  | .list items =>
      have bracket : Printed ascii [91] ∧ Printed ascii [93] := by simp [Printed]
      exact (bracket.1.append (items_printed items unpaired)).append bracket.2
  | .dict entries =>
      have brace : Printed ascii [123] ∧ Printed ascii [125] := by simp [Printed]
      exact (brace.1.append (entries_printed entries unpaired)).append brace.2

theorem items_printed (items : List Tree) (unpaired : UnpairedItems items)
    : Printed ascii (dumpsItems ascii items) := by
  match items with
  | [] => simp [dumpsItems, Printed]
  | item :: more =>
      have comma : Printed ascii [44, 32] := by simp [Printed]
      rw [dumpsItems_cons]
      refine (dumps_printed item unpaired.1).append ?_
      split
      · simp [Printed]
      · exact comma.append (items_printed more unpaired.2)

theorem entries_printed (entries : List (Text × Tree)) (unpaired : UnpairedEntries entries)
    : Printed ascii (dumpsEntries ascii entries) := by
  match entries with
  | [] => simp [dumpsEntries, Printed]
  | (key, item) :: more =>
      have colon : Printed ascii [58, 32] := by simp [Printed]
      have comma : Printed ascii [44, 32] := by simp [Printed]
      rw [dumpsEntries_cons]
      refine (((writeString_printed unpaired.1.1.1).append colon).append
        (dumps_printed item unpaired.1.2)).append ?_
      split
      · simp [Printed]
      · exact comma.append (entries_printed more unpaired.2)

end

end Tree

/-- The string of a text; lone surrogates become another character. -/
def ofText (s : Text) : String := String.ofList (s.map Char.ofNat)

theorem ofText_text (s : String) : ofText (text s) = s := by
  have same : Char.ofNat ∘ Char.toNat = id := by
    funext c
    exact Char.ofNat_toNat c
  rw [ofText, text, List.map_map, same, List.map_id, String.ofList_toList]

/-- The characters of a string are no surrogates. -/
theorem text_unpaired (s : String) : Unpaired (text s) := by
  have valid {c : Nat} (member : c ∈ text s)
      : c < 0x110000 ∧ isHigh c = false := by
    obtain ⟨char, _, rfl⟩ := List.mem_map.mp member
    have scalar : char.toNat < 0xD800 ∨ 0xDFFF < char.toNat ∧ char.toNat < 0x110000 := char.valid
    constructor
    · omega
    · simp only [isHigh, Bool.and_eq_false_iff, decide_eq_false_iff_not]
      omega
  refine ⟨fun c member => (valid member).1, ?_⟩
  have apart : ∀ c ∈ text s, isHigh c = false := fun c member => (valid member).2
  generalize text s = units at apart
  induction units with
  | nil => exact .nil
  | cons c more ih =>
      refine List.isChain_cons.mpr
        ⟨fun d _ => by simp [apart c List.mem_cons_self], ih (fun d member => ?_)⟩
      exact apart d (List.mem_cons_of_mem _ member)

end Json
