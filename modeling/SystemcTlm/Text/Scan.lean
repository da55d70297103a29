import Mathlib.Data.List.DropRight
import Mathlib.Data.List.TakeWhile

/-!
# Lines, blanks and hexadecimal numerals

The functions of the C++ library that take a text apart, on lists of characters:
`getline` with a delimiter, trimming, and `stoul` in base 16.  Each comes with
what it does on a text put together from its parts.
-/

namespace SystemcTlm.Text

/-! ## Lines -/

/-- `getline`: the text up to the delimiter and what follows it.  It fails on an
empty stream only. -/
def getline (delim : Char) (stream : List Char) : Option (List Char × List Char) :=
  if stream = [] then none
  else some (stream.takeWhile (· != delim), (stream.dropWhile (· != delim)).tail)

/-- The lines that a loop over `getline` reads.  Each pass takes a character, so
as many passes as there are characters are enough. -/
def getlines (delim : Char) : Nat → List Char → List (List Char)
  | 0, _ => []
  | passes + 1, stream =>
      match getline delim stream with
      | none => []
      | some (line, rest) => line :: getlines delim passes rest

variable {delim : Char} {line rest : List Char}

@[simp]
theorem getline_nil (delim : Char) : getline delim [] = none :=
  rfl

theorem bne_of_not_mem (outside : delim ∉ line) :
    ∀ c, c ∈ line → (c != delim) = true := by
  intro c member
  rw [bne_iff_ne]
  exact fun same => outside (same ▸ member)

theorem getline_append_cons (outside : delim ∉ line) (rest : List Char) :
    getline delim (line ++ delim :: rest) = some (line, rest) := by
  have kept := bne_of_not_mem outside
  have nonempty : line ++ delim :: rest ≠ [] := List.append_ne_nil_of_right_ne_nil _ (by simp)
  rw [getline, if_neg nonempty, List.takeWhile_append_of_pos kept,
    List.dropWhile_append_of_pos kept]
  simp

theorem getline_of_not_mem (nonempty : line ≠ []) (outside : delim ∉ line) :
    getline delim line = some (line, []) := by
  have kept := bne_of_not_mem outside
  rw [getline, if_neg nonempty, List.takeWhile_eq_self_iff.mpr kept,
    List.dropWhile_eq_nil_iff.mpr kept]
  rfl

/-- The lines put together come apart again. -/
theorem getlines_intercalate {lines : List (List Char)} {passes : Nat}
    (nonempty : ∀ line, line ∈ lines → line ≠ [])
    (outside : ∀ line, line ∈ lines → delim ∉ line)
    (enough : ([delim].intercalate lines).length ≤ passes) :
    getlines delim passes ([delim].intercalate lines) = lines := by
  induction lines generalizing passes with
  | nil => cases passes <;> rfl
  | cons line lines ih =>
      have lineNonempty := nonempty line List.mem_cons_self
      have lineOutside := outside line List.mem_cons_self
      have length := List.length_pos_iff.mpr lineNonempty
      cases lines with
      | nil =>
          rw [List.intercalate_singleton] at enough ⊢
          obtain ⟨passes, rfl⟩ := Nat.exists_eq_add_of_lt (Nat.lt_of_lt_of_le length enough)
          rw [getlines, getline_of_not_mem lineNonempty lineOutside]
          cases passes <;> rfl
      | cons next lines =>
          rw [List.intercalate_cons_cons, List.append_assoc, List.singleton_append] at enough ⊢
          rw [List.length_append, List.length_cons] at enough
          cases passes with
          | zero => omega
          | succ passes =>
              rw [getlines, getline_append_cons lineOutside]
              dsimp only
              rw [ih]
              · exact fun other member => nonempty other (List.mem_cons_of_mem line member)
              · exact fun other member => outside other (List.mem_cons_of_mem line member)
              · omega

/-! ## Blanks -/

/-- The blanks that `isspace` knows. -/
def isSpace (c : Char) : Bool :=
  c ∈ [' ', '\t', '\n', '\r', '\x0c', '\x0b']

/-- The text without the blanks at its ends. -/
def trim (text : List Char) : List Char :=
  (text.dropWhile isSpace).rdropWhile isSpace

theorem rdropWhile_append_of_last {p : Char → Bool} {core : List Char} {last : Char}
    (ends : core.getLast? = some last) (stays : p last = false) (tail : List Char) :
    (core ++ tail).rdropWhile p = core ++ tail.rdropWhile p := by
  induction tail using List.reverseRecOn with
  | nil =>
      rcases List.getLast?_eq_some_iff.mp ends with ⟨init, rfl⟩
      rw [List.append_nil, List.rdropWhile_concat, if_neg (Bool.not_eq_true _ ▸ stays),
        List.rdropWhile_nil, List.append_nil]
  | append_singleton tail c ih =>
      rw [← List.append_assoc, List.rdropWhile_concat, List.rdropWhile_concat, ih]
      split_ifs
      · rfl
      · rw [List.append_assoc]

/-- A core that begins and ends with no blank is kept whole, and the blanks
after it are cut at the end of the text only. -/
theorem trim_append {blank core : List Char} (spaces : ∀ c, c ∈ blank → isSpace c = true)
    {first last : Char} (begins : core.head? = some first) (ends : core.getLast? = some last)
    (beginsBlack : isSpace first = false) (endsBlack : isSpace last = false) (tail : List Char) :
    trim (blank ++ core ++ tail) = core ++ tail.rdropWhile isSpace := by
  have front : (core ++ tail).dropWhile isSpace = core ++ tail := by
    rcases List.head?_eq_some_iff.mp begins with ⟨rest, rfl⟩
    exact List.dropWhile_cons_of_neg (Bool.not_eq_true _ ▸ beginsBlack)
  rw [trim, List.append_assoc, List.dropWhile_append_of_pos spaces, front,
    rdropWhile_append_of_last ends endsBlack]

/-! ## Hexadecimal numerals -/

/-- The value of a hexadecimal digit. -/
def hexDigit? (c : Char) : Option Nat :=
  if '0' ≤ c ∧ c ≤ '9' then some (c.toNat - '0'.toNat)
  else if 'a' ≤ c ∧ c ≤ 'f' then some (c.toNat - 'a'.toNat + 10)
  else if 'A' ≤ c ∧ c ≤ 'F' then some (c.toNat - 'A'.toNat + 10)
  else none

/-- The character is a hexadecimal digit. -/
def isHexDigit (c : Char) : Bool :=
  (hexDigit? c).isSome

/-- The value of a hexadecimal numeral. -/
def hexValue (digits : List Char) : Nat :=
  digits.foldl (fun value digit => 16 * value + (hexDigit? digit).getD 0) 0

theorem hexDigit_lt (c : Char) : (hexDigit? c).getD 0 < 16 := by
  have toNat_le : ∀ high : Char, c ≤ high → c.toNat ≤ high.toNat := fun _ below => below
  rw [hexDigit?]
  split_ifs with decimal lower upper
  · have bound : c.toNat ≤ 57 := toNat_le '9' decimal.2
    change c.toNat - 48 < 16
    omega
  · have bound : c.toNat ≤ 102 := toNat_le 'f' lower.2
    change c.toNat - 97 + 10 < 16
    omega
  · have bound : c.toNat ≤ 70 := toNat_le 'F' upper.2
    change c.toNat - 65 + 10 < 16
    omega
  · decide

/-- Two digits fit a byte. -/
theorem hexValue_lt {digits : List Char} (short : digits.length ≤ 2) : hexValue digits < 256 := by
  match digits, short with
  | [], _ => decide
  | [d], _ =>
      have := hexDigit_lt d
      rw [hexValue, List.foldl_cons, List.foldl_nil]
      omega
  | [d, d'], _ =>
      have := hexDigit_lt d
      have := hexDigit_lt d'
      rw [hexValue, List.foldl_cons, List.foldl_cons, List.foldl_nil]
      omega

/-- The letter of a hexadecimal prefix, of which `tolower` makes an `x`. -/
def IsX (c : Char) : Prop :=
  c = 'x' ∨ c = 'X'

instance (c : Char) : Decidable (IsX c) :=
  inferInstanceAs (Decidable (_ ∨ _))

/-- The text without `0x` or `0X` at its beginning. -/
def dropHexPrefix : List Char → List Char
  | zero :: x :: rest => if zero = '0' ∧ IsX x then rest else zero :: x :: rest
  | text => text

/-- The sign of a numeral, and what follows it. -/
def sign (text : List Char) : Bool × List Char :=
  if text.head? = some '-' then (true, text.tail)
  else if text.head? = some '+' then (false, text.tail)
  else (false, text)

/-- The digits at the beginning of a text, after `0x` if a digit follows it. -/
def leadingDigits (text : List Char) : List Char :=
  let body := dropHexPrefix text
  (if body.head?.any isHexDigit then body else text).takeWhile isHexDigit

/-- One more than the largest `unsigned long`. -/
def ulongRange : Nat :=
  0x10000000000000000

/-- `stoul` in base 16.  It throws if there is no digit, or if the digits exceed
the type; a minus sign negates the result. -/
def stoulHex (text : List Char) : Option Nat :=
  let (negative, rest) := sign (text.dropWhile isSpace)
  let digits := leadingDigits rest
  if digits = [] ∨ ulongRange ≤ hexValue digits then none
  else if negative then some ((ulongRange - hexValue digits) % ulongRange)
  else some (hexValue digits)

theorem space_distinct {c : Char} (space : isSpace c = true) :
    isHexDigit c = false ∧ ¬ IsX c := by
  have member := decide_eq_true_iff.mp space
  simp only [List.mem_cons, List.not_mem_nil, or_false] at member
  rcases member with rfl | rfl | rfl | rfl | rfl | rfl <;> decide

/-- A hexadecimal digit is no blank, no sign and no letter of a prefix. -/
theorem hexDigit_distinct {c : Char} (hex : isHexDigit c = true) :
    isSpace c = false ∧ c ≠ '-' ∧ c ≠ '+' ∧ ¬ IsX c := by
  have other : ∀ d : Char, isHexDigit d = false → c ≠ d := by
    rintro d notHex rfl
    rw [hex] at notHex
    cases notHex
  refine ⟨?_, other '-' (by decide), other '+' (by decide), ?_⟩
  · rw [← Bool.not_eq_true]
    exact fun space => other c (space_distinct space).1 rfl
  · exact fun isX => isX.elim (other 'x' (by decide)) (other 'X' (by decide))

/-- A text goes on behind its digits with no digit and no letter of a prefix. -/
def EndsDigits (tail : List Char) : Prop :=
  ∀ c, tail.head? = some c → isHexDigit c = false ∧ ¬ IsX c

variable {digits tail : List Char}

theorem takeWhile_digits (hex : ∀ d, d ∈ digits → isHexDigit d = true) (ends : EndsDigits tail) :
    (digits ++ tail).takeWhile isHexDigit = digits := by
  rw [List.takeWhile_append_of_pos hex]
  cases tail with
  | nil => rw [List.takeWhile_nil, List.append_nil]
  | cons c tail =>
      rw [List.takeWhile_cons_of_neg (Bool.not_eq_true _ ▸ (ends c rfl).1), List.append_nil]

theorem dropHexPrefix_digits (hex : ∀ d, d ∈ digits → isHexDigit d = true)
    (nonempty : digits ≠ []) (ends : EndsDigits tail) :
    dropHexPrefix (digits ++ tail) = digits ++ tail := by
  rcases List.exists_cons_of_ne_nil nonempty with ⟨d, digits, rfl⟩
  have second : ∀ c, (digits ++ tail).head? = some c → ¬ IsX c := by
    intro c head
    cases digits with
    | nil => exact (ends c head).2
    | cons d' digits =>
        cases head
        exact (hexDigit_distinct (hex c (List.mem_cons_of_mem _ List.mem_cons_self))).2.2.2
  rw [List.cons_append]
  cases rest : digits ++ tail with
  | nil => rfl
  | cons c rest' =>
      rw [dropHexPrefix, if_neg]
      exact fun isPrefix => second c (by rw [rest]; rfl) isPrefix.2

/-- `stoul` reads the digits at the beginning of a text. -/
theorem stoulHex_digits (hex : ∀ d, d ∈ digits → isHexDigit d = true) (nonempty : digits ≠ [])
    (ends : EndsDigits tail) (fits : hexValue digits < ulongRange) :
    stoulHex (digits ++ tail) = some (hexValue digits) := by
  have leading : leadingDigits (digits ++ tail) = digits := by
    rw [leadingDigits, dropHexPrefix_digits hex nonempty ends, ite_self]
    exact takeWhile_digits hex ends
  rcases List.exists_cons_of_ne_nil nonempty with ⟨d, rest, rfl⟩
  rcases hexDigit_distinct (hex d List.mem_cons_self) with ⟨black, notMinus, notPlus, -⟩
  have front : (d :: rest ++ tail).dropWhile isSpace = d :: rest ++ tail :=
    List.dropWhile_cons_of_neg (Bool.not_eq_true _ ▸ black)
  have unsigned : sign (d :: rest ++ tail) = (false, d :: rest ++ tail) := by
    rw [sign, if_neg, if_neg]
    · exact fun plus => notPlus (Option.some.inj plus)
    · exact fun minus => notMinus (Option.some.inj minus)
  rw [stoulHex, front, unsigned]
  dsimp only
  rw [leading, if_neg, if_neg Bool.false_ne_true]
  exact not_or.mpr ⟨nonempty, Nat.not_le.mpr fits⟩

end SystemcTlm.Text
