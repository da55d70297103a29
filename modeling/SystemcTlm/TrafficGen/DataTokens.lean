import Mathlib.Data.List.Forall2
import Mathlib.Data.List.ReduceOption
import SystemcTlm.Text.Split
import SystemcTlm.TrafficGen.DataString

/-!
# What a data string stands for

The bytes that a text stands for are the values of those of its tokens that are
hexadecimal numerals of a byte, and `parseDataString` is compared with them
token by token.  It differs where `stoul` reads a numeral at the beginning of a
token that is not one of a byte, and where blanks stand before the opening
brace, which the code removes at the very beginning of the text only.
-/

namespace SystemcTlm.TrafficGen

open SystemcTlm.Text

/-! ## The bytes of a text -/

/-- The text without the blanks and braces around it. -/
def enclosed (dataStr : List Char) : List Char :=
  let core := trim dataStr
  let opened := if core.head? = some '{' then core.tail else core
  if opened.getLast? = some '}' then opened.dropLast else opened

/-- The tokens between the braces, without the blanks around them. -/
def dataTokens (dataStr : List Char) : List (List Char) :=
  ((enclosed dataStr).splitOn ',').map trim

/-- A hexadecimal numeral, with or without `0x`, of value at most 255. -/
def IsByteNumeral (token : List Char) : Prop :=
  dropHexPrefix token ≠ [] ∧ (dropHexPrefix token).all isHexDigit = true ∧
    hexValue (dropHexPrefix token) ≤ 255

instance (token : List Char) : Decidable (IsByteNumeral token) :=
  inferInstanceAs (Decidable (_ ∧ _ ∧ _))

/-- The byte that a token stands for. -/
def tokenByte? (token : List Char) : Option UInt8 :=
  if IsByteNumeral token then some (UInt8.ofNat (hexValue (dropHexPrefix token))) else none

/-- The bytes of the tokens that are numerals. -/
def dataValues (dataStr : List Char) : List UInt8 :=
  (dataTokens dataStr).filterMap tokenByte?

theorem tokenByte?_isSome_iff {token : List Char} :
    (tokenByte? token).isSome ↔ IsByteNumeral token := by
  rw [tokenByte?]
  split_ifs with byte
  · exact iff_of_true rfl byte
  · exact iff_of_false Bool.false_ne_true byte

theorem tokenByte?_eq_none_iff {token : List Char} :
    tokenByte? token = none ↔ ¬ IsByteNumeral token := by
  rw [← tokenByte?_isSome_iff, Option.not_isSome_iff_eq_none]

/-! ## The bytes of the code -/

/-- The tokens that the loop of `parseDataString` reads. -/
def dataLines (dataStr : List Char) : List (List Char) :=
  let iss := if dataStr.head? = some '{' then dataStr.tail else dataStr
  getlines ',' iss.length iss

theorem parseDataString_eq (dataStr : List Char) :
    parseDataString dataStr = (dataLines dataStr).filterMap parseToken :=
  parseTokens_eq _

/-- The byte that a pass of the loop adds. -/
def passByte (dataStr : List Char) (pass : Nat) : Option UInt8 :=
  (dataLines dataStr)[pass]?.bind parseToken

/-- The list is the values of the byte numerals, and no other token adds to it. -/
def ReadsValues (dataStr : List Char) : Prop :=
  parseDataString dataStr = dataValues dataStr ∧
    ∀ (pass : Nat) (token : List Char), (dataTokens dataStr)[pass]? = some token →
      ¬ IsByteNumeral token → passByte dataStr pass = none

/-! ## One token -/

/-- `stoul` reads a numeral of its type at the beginning of the token. -/
def BeginsNumeral (token : List Char) : Prop :=
  stoulDigits (dropHexPrefix token) ≠ [] ∧
    hexValue (stoulDigits (dropHexPrefix token)) < ulongRange

instance (token : List Char) : Decidable (BeginsNumeral token) :=
  inferInstanceAs (Decidable (_ ∧ _))

theorem parseToken_isSome_iff (token : List Char) :
    (parseToken token).isSome ↔ BeginsNumeral (trim token) := by
  rw [parseToken, Option.isSome_map, stoulHex_isSome_iff]
  rfl

theorem stoulHex_byteNumeral {token : List Char} (byte : IsByteNumeral token) :
    stoulHex (dropHexPrefix token) = some (hexValue (dropHexPrefix token)) := by
  rcases byte with ⟨nonempty, hex, small⟩
  have fits : hexValue (dropHexPrefix token) < ulongRange :=
    Nat.lt_of_le_of_lt small (by decide)
  have ends : EndsDigits [] := fun c head => nomatch head
  have read := stoulHex_digits (List.all_eq_true.mp hex) nonempty ends fits
  rwa [List.append_nil] at read

theorem parseToken_byteNumeral {token : List Char} (byte : IsByteNumeral (trim token)) :
    parseToken token = tokenByte? (trim token) := by
  rw [parseToken, stoulHex_byteNumeral byte, tokenByte?, if_pos byte]
  rfl

/-- The code reads a token as it is meant if and only if, where `stoul` reads
it, it is the numeral of a byte. -/
theorem parseToken_eq_tokenByte?_iff (token : List Char) :
    parseToken token = tokenByte? (trim token) ↔
      (BeginsNumeral (trim token) → IsByteNumeral (trim token)) := by
  constructor
  · intro same begins
    rwa [← tokenByte?_isSome_iff, ← same, parseToken_isSome_iff]
  · intro only
    by_cases byte : IsByteNumeral (trim token)
    · exact parseToken_byteNumeral byte
    · rw [tokenByte?_eq_none_iff.mpr byte, ← Option.not_isSome_iff_eq_none,
        parseToken_isSome_iff]
      exact fun begins => byte (only begins)

theorem parseToken_nil : parseToken [] = none :=
  rfl

theorem brace_stops : StopsNumeral '}' := by
  exact ⟨by decide, by decide, by decide, by decide⟩

/-- Blanks and the closing brace around a token change nothing. -/
theorem parseToken_append {front tail : List Char} (spaces : ∀ c, c ∈ front → isSpace c = true)
    (closes : ∀ c, c ∈ tail → c = '}' ∨ isSpace c = true) (token : List Char) :
    parseToken (front ++ token ++ tail) = parseToken token := by
  rcases exists_trim_append spaces token tail with ⟨rest, trimmed, restOf⟩
  have stops : ∀ c, c ∈ rest → StopsNumeral c := by
    intro c member
    rcases restOf c member with inTail | space
    · rcases closes c inTail with rfl | space
      · exact brace_stops
      · exact space_stops space
    · exact space_stops space
  rw [parseToken, parseToken, trimmed, dropHexPrefix_append stops, stoulHex_append stops]

/-- With a brace in front, `stoul` throws. -/
theorem parseToken_openBrace {front : List Char} (spaces : ∀ c, c ∈ front → isSpace c = true)
    (token : List Char) : parseToken (front ++ '{' :: token) = none := by
  have core : (front ++ '{' :: token).dropWhile isSpace = '{' :: token := by
    rw [List.dropWhile_append_of_pos spaces]
    exact List.dropWhile_cons_of_neg (by decide)
  have trimmed : ∃ rest, trim (front ++ '{' :: token) = '{' :: rest := by
    have last := @rdropWhile_append_of_last isSpace ['{'] '{' rfl (by decide) token
    exact ⟨token.rdropWhile isSpace, by rw [trim, core]; exact last⟩
  rcases trimmed with ⟨rest, trimmed⟩
  rw [parseToken, trimmed]
  cases rest <;> rfl

/-! ## All tokens -/

/-- What the code reads where it reads at most what is meant. -/
abbrev Reads (passes values : List (Option UInt8)) : Prop :=
  List.Forall₂ (fun pass value => value = none → pass = none) passes values

theorem Reads.length_le {passes values : List (Option UInt8)} (reads : Reads passes values) :
    passes.reduceOption.length ≤ values.reduceOption.length := by
  induction reads with
  | nil => exact Nat.le_refl _
  | @cons pass value passes values supported _ ih =>
      cases value with
      | none =>
          rw [supported rfl, List.reduceOption_cons_of_none, List.reduceOption_cons_of_none]
          exact ih
      | some meant =>
          cases pass with
          | none =>
              rw [List.reduceOption_cons_of_none, List.reduceOption_cons_of_some]
              exact Nat.le_succ_of_le ih
          | some byte =>
              rw [List.reduceOption_cons_of_some, List.reduceOption_cons_of_some]
              exact Nat.succ_le_succ ih

/-- Nothing is missing in a list of the same bytes. -/
theorem Reads.eq_of_reduceOption {passes values : List (Option UInt8)}
    (reads : Reads passes values) (same : passes.reduceOption = values.reduceOption) :
    passes = values := by
  induction reads with
  | nil => rfl
  | @cons pass value passes values supported later ih =>
      cases value with
      | none =>
          rw [supported rfl, List.reduceOption_cons_of_none,
            List.reduceOption_cons_of_none] at same
          rw [supported rfl, ih same]
      | some meant =>
          cases pass with
          | none =>
              have fewer := Reads.length_le later
              rw [List.reduceOption_cons_of_none, List.reduceOption_cons_of_some] at same
              rw [same, List.length_cons] at fewer
              omega
          | some byte =>
              rw [List.reduceOption_cons_of_some, List.reduceOption_cons_of_some,
                List.cons.injEq] at same
              rw [same.1, ih same.2]

/-- The text that the loop reads. -/
def afterBrace (dataStr : List Char) : List Char :=
  if dataStr.head? = some '{' then dataStr.tail else dataStr

/-- Blanks stand before the opening brace. -/
def BlankBeforeBrace (dataStr : List Char) : Prop :=
  dataStr.head? ≠ some '{' ∧ (trim dataStr).head? = some '{'

instance (dataStr : List Char) : Decidable (BlankBeforeBrace dataStr) :=
  inferInstanceAs (Decidable (_ ∧ _))

theorem exists_closing (opened : List Char) :
    ∃ closing, (∀ c, c ∈ closing → c = '}') ∧
      opened = (if opened.getLast? = some '}' then opened.dropLast else opened) ++ closing := by
  split_ifs with closed
  · rcases List.getLast?_eq_some_iff.mp closed with ⟨init, rfl⟩
    exact ⟨['}'], fun c member => List.mem_singleton.mp member, by rw [List.dropLast_concat]⟩
  · exact ⟨[], List.forall_mem_nil _, (List.append_nil _).symm⟩

/-- The loop reads the text between the braces with blanks in front of it, and
with the opening brace where blanks stand before that. -/
theorem exists_afterBrace (dataStr : List Char) :
    ∃ front tail, (∀ c, c ∈ front → isSpace c = true) ∧
      (∀ c, c ∈ tail → c = '}' ∨ isSpace c = true) ∧
      afterBrace dataStr =
        if BlankBeforeBrace dataStr then front ++ '{' :: (enclosed dataStr ++ tail)
        else front ++ enclosed dataStr ++ tail := by
  rcases eq_append_trim dataStr with ⟨before, after, beforeSpaces, afterSpaces, split⟩
  have notBrace : ∀ c, isSpace c = true → c ≠ '{' := by
    rintro c space rfl
    exact absurd space (by decide)
  have closes : ∀ closing : List Char, (∀ c, c ∈ closing → c = '}') →
      ∀ c, c ∈ closing ++ after → c = '}' ∨ isSpace c = true := fun closing braces c member =>
    (List.mem_append.mp member).imp (braces c) (afterSpaces c)
  by_cases opens : (trim dataStr).head? = some '{'
  · rcases List.head?_eq_some_iff.mp opens with ⟨opened, core⟩
    rcases exists_closing opened with ⟨closing, braces, closed⟩
    have inner : enclosed dataStr ++ closing = opened := by
      rw [enclosed, core]
      exact closed.symm
    have whole : dataStr = before ++ '{' :: (enclosed dataStr ++ (closing ++ after)) := by
      rw [← List.append_assoc (enclosed dataStr), inner]
      conv_lhs => rw [split, core]
      rw [List.append_assoc, List.cons_append]
    refine ⟨before, closing ++ after, beforeSpaces, closes closing braces, ?_⟩
    cases before with
    | nil =>
        have first : dataStr.head? = some '{' := by rw [whole]; rfl
        rw [if_neg fun blank => blank.1 first, afterBrace, if_pos first]
        conv_lhs => rw [whole]
        rfl
    | cons c before =>
        have first : dataStr.head? ≠ some '{' := by
          rw [whole]
          exact fun head => notBrace c (beforeSpaces c List.mem_cons_self) (Option.some.inj head)
        rw [if_pos ⟨first, opens⟩, afterBrace, if_neg first]
        exact whole
  · rcases exists_closing (trim dataStr) with ⟨closing, braces, closed⟩
    have inner : enclosed dataStr ++ closing = trim dataStr := by
      rw [enclosed, if_neg opens]
      exact closed.symm
    have whole : dataStr = before ++ enclosed dataStr ++ (closing ++ after) := by
      rw [List.append_assoc, ← List.append_assoc (enclosed dataStr), inner,
        ← List.append_assoc]
      exact split
    have first : dataStr.head? ≠ some '{' := by
      intro head
      apply opens
      rcases List.head?_eq_some_iff.mp head with ⟨rest, cons⟩
      have black : dataStr.dropWhile isSpace = dataStr := by
        rw [cons]
        exact List.dropWhile_cons_of_neg (by decide)
      rw [trim, black, cons]
      rw [show ('{' :: rest) = ['{'] ++ rest from rfl,
        @rdropWhile_append_of_last isSpace ['{'] '{' rfl (by decide)]
      rfl
    refine ⟨before, closing ++ after, beforeSpaces, closes closing braces, ?_⟩
    rw [if_neg fun blank => opens blank.2, afterBrace, if_neg first]
    exact whole

/-- What blanks in front of a text and the closing brace behind it leave of the
bytes of its tokens. -/
theorem map_parseToken_append {front tail : List Char}
    (spaces : ∀ c, c ∈ front → isSpace c = true)
    (closes : ∀ c, c ∈ tail → c = '}' ∨ isSpace c = true) (text : List Char) :
    ((front ++ text ++ tail).splitOn ',').map parseToken =
      (text.splitOn ',').map parseToken := by
  have frontOutside : ',' ∉ front := fun member => absurd (spaces _ member) (by decide)
  have tailOutside : ',' ∉ tail := fun member =>
    (closes _ member).elim (by decide) fun space => absurd space (by decide)
  have inner : ∀ token, parseToken (front ++ token) = parseToken token := fun token => by
    have bare := parseToken_append spaces (List.forall_mem_nil _) token
    rwa [List.append_nil] at bare
  have last : ∀ token, parseToken (token ++ tail) = parseToken token :=
    @parseToken_append [] tail (List.forall_mem_nil _) closes
  rcases splitOn_append_right tailOutside text with ⟨init, final, pieces, extended⟩
  rw [List.append_assoc, splitOn_append_left frontOutside, pieces, extended]
  cases init with
  | nil => exact congrArg (fun byte => [byte]) ((inner _).trans (last final))
  | cons first init =>
      rw [List.cons_append, List.modifyHead_cons, List.map_cons, inner, List.cons_append,
        List.map_cons, List.map_append, List.map_append, List.map_singleton, last,
        List.map_singleton]

/-- The bytes that the passes of the loop find. -/
def passes (dataStr : List Char) : List (Option UInt8) :=
  ((afterBrace dataStr).splitOn ',').map parseToken

theorem passes_eq {dataStr : List Char} {first : List Char} {later : List (List Char)}
    (pieces : (enclosed dataStr).splitOn ',' = first :: later) :
    passes dataStr =
      (if BlankBeforeBrace dataStr then none else parseToken first) :: later.map parseToken := by
  rcases exists_afterBrace dataStr with ⟨front, tail, spaces, closes, read⟩
  rw [passes, read]
  split_ifs with blank
  · have outside : ',' ∉ front ++ ['{'] := by
      rw [List.mem_append, not_or]
      exact ⟨fun member => absurd (spaces _ member) (by decide), by decide⟩
    have inner := @map_parseToken_append [] tail (List.forall_mem_nil _) closes
      (enclosed dataStr)
    rw [List.nil_append, pieces] at inner
    rw [show front ++ '{' :: (enclosed dataStr ++ tail) =
        (front ++ ['{']) ++ (enclosed dataStr ++ tail) by rw [List.append_assoc]; rfl,
      splitOn_append_left outside]
    cases extended : (enclosed dataStr ++ tail).splitOn ',' with
    | nil => exact absurd extended (List.splitOn_ne_nil _ _)
    | cons head rest =>
        rw [extended, List.map_cons, List.map_cons, List.cons.injEq] at inner
        rw [List.modifyHead_cons, List.map_cons, inner.2, List.append_assoc]
        exact congrArg (· :: later.map parseToken) (parseToken_openBrace spaces head)
  · rw [map_parseToken_append spaces closes, pieces, List.map_cons]

theorem parseDataString_eq_passes (dataStr : List Char) :
    parseDataString dataStr = (passes dataStr).reduceOption := by
  rw [parseDataString_eq, passes, List.reduceOption, List.filterMap_map]
  exact getlines_filterMap_eq parseToken_nil ',' (afterBrace dataStr)

theorem passByte_eq (dataStr : List Char) (pass : Nat) :
    passByte dataStr pass = (passes dataStr)[pass]?.join := by
  have bound := getlines_bind_eq parseToken_nil ',' (afterBrace dataStr) pass
  rw [passByte, passes, List.getElem?_map, ← Option.bind_id_eq_join, Option.bind_map,
    Function.id_comp]
  exact bound

theorem dataValues_eq (dataStr : List Char) :
    dataValues dataStr = ((dataTokens dataStr).map tokenByte?).reduceOption := by
  rw [dataValues, List.reduceOption, List.filterMap_map]
  rfl

theorem length_passes (dataStr : List Char) :
    (passes dataStr).length = (dataTokens dataStr).length := by
  cases pieces : (enclosed dataStr).splitOn ',' with
  | nil => exact absurd pieces (List.splitOn_ne_nil _ _)
  | cons first later =>
      rw [passes_eq pieces, dataTokens, pieces, List.length_cons, List.length_map,
        List.length_map, List.length_cons]

/-- The code reads what is meant if and only if it does so token by token. -/
theorem readsValues_iff_passes (dataStr : List Char) :
    ReadsValues dataStr ↔ passes dataStr = (dataTokens dataStr).map tokenByte? := by
  rw [ReadsValues, parseDataString_eq_passes, dataValues_eq]
  constructor
  · rintro ⟨same, none_of_not⟩
    refine Reads.eq_of_reduceOption ?_ same
    rw [Reads, List.forall₂_iff_get]
    refine ⟨by rw [length_passes, List.length_map], fun pass inPasses inValues noDigit => ?_⟩
    rw [List.length_map] at inValues
    rw [List.get_eq_getElem, List.getElem_map, tokenByte?_eq_none_iff] at noDigit
    have noByte := none_of_not pass _ (List.getElem?_eq_getElem inValues) noDigit
    rwa [passByte_eq, List.getElem?_eq_getElem inPasses, Option.join_some] at noByte
  · intro same
    refine ⟨congrArg _ same, fun pass token found notByte => ?_⟩
    rw [passByte_eq, same, List.getElem?_map, found, Option.map_some, Option.join_some]
    exact tokenByte?_eq_none_iff.mpr notByte

/-! ## Where the bytes are those of the text -/

/-- Where `stoul` reads a numeral at the beginning of a token, the token is the
numeral of a byte. -/
def OnlyByteNumerals (tokens : List (List Char)) : Prop :=
  ∀ token, token ∈ tokens → BeginsNumeral token → IsByteNumeral token

theorem map_parseToken_eq_iff (pieces : List (List Char)) :
    pieces.map parseToken = (pieces.map trim).map tokenByte? ↔
      OnlyByteNumerals (pieces.map trim) := by
  rw [List.map_map, List.map_inj_left, OnlyByteNumerals, List.forall_mem_map]
  exact forall₂_congr fun token _ => parseToken_eq_tokenByte?_iff token

/-- `parseDataString` reads the values of the byte numerals if and only if every
token with a numeral at its beginning is one, where behind blanks before the
opening brace the first token must rather be none. -/
theorem readsValues_iff (dataStr : List Char) :
    ReadsValues dataStr ↔
      if BlankBeforeBrace dataStr then
        (∀ token, (dataTokens dataStr).head? = some token → ¬ IsByteNumeral token) ∧
          OnlyByteNumerals (dataTokens dataStr).tail
      else OnlyByteNumerals (dataTokens dataStr) := by
  rw [readsValues_iff_passes]
  cases pieces : (enclosed dataStr).splitOn ',' with
  | nil => exact absurd pieces (List.splitOn_ne_nil _ _)
  | cons first later =>
      have tokens : dataTokens dataStr = trim first :: later.map trim := by
        rw [dataTokens, pieces, List.map_cons]
      rw [passes_eq pieces, tokens]
      split_ifs with blank
      · rw [List.map_cons, List.cons.injEq, map_parseToken_eq_iff, List.head?_cons,
          List.tail_cons]
        refine and_congr_left fun _ => ?_
        rw [eq_comm, tokenByte?_eq_none_iff]
        exact ⟨fun notByte token same => Option.some.inj same ▸ notByte, fun all => all _ rfl⟩
      · rw [← List.map_cons (f := parseToken), ← List.map_cons (f := trim),
          map_parseToken_eq_iff]

/-- The text of `{0x100}`. -/
def largeNumeral : List Char :=
  ['{', '0', 'x', '1', '0', '0', '}']

/-- The value of a large numeral loses its upper bits. -/
theorem readsValues_large :
    parseDataString largeNumeral = [0] ∧ dataValues largeNumeral = [] ∧
      ¬ ∀ dataStr, ReadsValues dataStr := by
  have read : parseDataString largeNumeral = [0] := by decide
  have meant : dataValues largeNumeral = [] := by decide
  refine ⟨read, meant, fun all => ?_⟩
  have same := (all largeNumeral).1
  rw [read, meant] at same
  cases same

end SystemcTlm.TrafficGen
