import SystemcTlm.Text.Scan

/-!
# The data notation of the traffic files

`parseDataString` of the traffic generator reads the bytes of a `data`
attribute, as in `{0xEE, 0x10, 0x80, 0x0}`.  The closing brace stays at the end
of the last token, where `stoul` stops before it.
-/

namespace SystemcTlm.TrafficGen

open SystemcTlm.Text

/-- The body of the loop: the byte of a token, or nothing where `stoul` throws. -/
def parseToken (token : List Char) : Option UInt8 :=
  (stoulHex (dropHexPrefix (trim token))).map UInt8.ofNat

/-- The loop over the tokens. -/
def parseTokens (tokens : List (List Char)) : List UInt8 :=
  tokens.foldl
    (fun byteArray token =>
      match parseToken token with
      | some byte => byteArray ++ [byte]
      | none => byteArray) []

/-- `parseDataString` -/
def parseDataString (dataStr : List Char) : List UInt8 :=
  let iss := if dataStr.head? = some '{' then dataStr.tail else dataStr
  parseTokens (getlines ',' iss.length iss)

theorem parseTokens_eq (tokens : List (List Char)) :
    parseTokens tokens = tokens.filterMap parseToken := by
  have run : ∀ byteArray : List UInt8, tokens.foldl
      (fun byteArray token =>
        match parseToken token with
        | some byte => byteArray ++ [byte]
        | none => byteArray) byteArray = byteArray ++ tokens.filterMap parseToken := by
    induction tokens with
    | nil => exact fun byteArray => (List.append_nil byteArray).symm
    | cons token tokens ih =>
        intro byteArray
        rw [List.foldl_cons, ih]
        cases parsed : parseToken token with
        | none => rw [List.filterMap_cons_none parsed]
        | some byte => rw [List.filterMap_cons_some parsed, List.append_assoc, List.singleton_append]
  exact run []

/-! ## The notation -/

/-- Blanks around an item. -/
abbrev Blank :=
  { text : List Char // ∀ c, c ∈ text → isSpace c = true }

/-- A byte in the notation: `0x` or `0X` and one or two digits, with blanks
around it. -/
structure Item where
  before : Blank
  x : Char
  digits : List Char
  after : Blank
  isX : IsX x
  hex : ∀ d, d ∈ digits → isHexDigit d = true
  nonempty : digits ≠ []
  short : digits.length ≤ 2

namespace Item

/-- The characters of the item. -/
def text (item : Item) : List Char :=
  item.before.val ++ '0' :: item.x :: item.digits ++ item.after.val

/-- The byte that the digits stand for. -/
def byte (item : Item) : UInt8 :=
  UInt8.ofNat (hexValue item.digits)

variable (item : Item)

theorem toNat_byte : item.byte.toNat = hexValue item.digits :=
  UInt8.toNat_ofNat_of_lt' (hexValue_lt item.short)

theorem hexDigit_digitChar {n : Nat} (bound : n < 16) : hexDigit? (Nat.digitChar n) = some n := by
  revert n
  decide

/-- Every byte has an item. -/
def ofByte (byte : UInt8) : Item where
  before := ⟨[], fun _ member => nomatch member⟩
  x := 'x'
  digits := [Nat.digitChar (byte.toNat / 16), Nat.digitChar (byte.toNat % 16)]
  after := ⟨[], fun _ member => nomatch member⟩
  isX := Or.inl rfl
  hex d member := by
    have high : byte.toNat / 16 < 16 := Nat.div_lt_of_lt_mul byte.toNat_lt
    have low : byte.toNat % 16 < 16 := Nat.mod_lt _ (by decide)
    rcases List.mem_cons.mp member with rfl | later
    · rw [isHexDigit, hexDigit_digitChar high]
      rfl
    · rw [List.mem_singleton.mp later, isHexDigit, hexDigit_digitChar low]
      rfl
  nonempty := List.cons_ne_nil _ _
  short := Nat.le_refl 2

/-- That item stands for the byte. -/
theorem byte_ofByte (byte : UInt8) : (ofByte byte).byte = byte := by
  have high : byte.toNat / 16 < 16 := Nat.div_lt_of_lt_mul byte.toNat_lt
  have low : byte.toNat % 16 < 16 := Nat.mod_lt _ (by decide)
  apply UInt8.toNat_inj.mp
  rw [toNat_byte, ofByte, hexValue, List.foldl_cons, List.foldl_cons, List.foldl_nil,
    hexDigit_digitChar high, hexDigit_digitChar low, Option.getD_some, Option.getD_some]
  omega

/-- A token with the brace behind its item still gives the byte. -/
theorem parseToken_text {braces : List Char} (only : ∀ c, c ∈ braces → c = '}') :
    parseToken (item.text ++ braces) = some item.byte := by
  have whole : item.text ++ braces =
      item.before.val ++ ('0' :: item.x :: item.digits) ++ (item.after.val ++ braces) := by
    rw [text, List.append_assoc]
  have final := List.getLast?_eq_some_getLast item.nonempty
  have coreFinal : ('0' :: item.x :: item.digits).getLast? =
      some (item.digits.getLast item.nonempty) := by
    rw [List.getLast?_cons, List.getLast?_cons, final]
    rfl
  have finalHex := item.hex _ (List.getLast_mem item.nonempty)
  have ends : EndsDigits ((item.after.val ++ braces).rdropWhile isSpace) := by
    intro c head
    have member := (List.rdropWhile_prefix isSpace _).subset (List.mem_of_head? head)
    rcases List.mem_append.mp member with space | brace
    · exact space_distinct (item.after.property c space)
    · rw [only c brace]
      decide
  rw [parseToken, whole, trim_append item.before.property rfl coreFinal (by decide)
    (hexDigit_distinct finalHex).1]
  rw [List.cons_append, List.cons_append, dropHexPrefix, if_pos ⟨rfl, item.isX⟩,
    stoulHex_digits item.hex item.nonempty ends]
  · rfl
  · exact Nat.lt_trans (hexValue_lt item.short) (by decide)

end Item

/-- The items in braces, separated by commas; with no items there may be blanks. -/
def render (blank : Blank) (items : List Item) : List Char :=
  '{' :: (if items = [] then blank.val else [','].intercalate (items.map Item.text)) ++ ['}']

/-- The tokens of the notation, of which the last has the brace. -/
def tokens (blank : Blank) : List Item → List (List Char)
  | [] => [blank.val ++ ['}']]
  | [item] => [item.text ++ ['}']]
  | item :: next :: rest => item.text :: tokens blank (next :: rest)

theorem tokens_ne_nil (blank : Blank) (items : List Item) : tokens blank items ≠ [] := by
  match items with
  | [] => exact List.cons_ne_nil _ _
  | [item] => exact List.cons_ne_nil _ _
  | item :: next :: rest => exact List.cons_ne_nil _ _

theorem intercalate_tokens (blank : Blank) (item : Item) (items : List Item) :
    [','].intercalate (tokens blank (item :: items)) =
      [','].intercalate ((item :: items).map Item.text) ++ ['}'] := by
  induction items generalizing item with
  | nil =>
      rw [tokens, List.map_singleton, List.intercalate_singleton, List.intercalate_singleton]
  | cons next rest ih =>
      have joined : [','].intercalate ((item :: next :: rest).map Item.text) =
          item.text ++ [','] ++ [','].intercalate ((next :: rest).map Item.text) :=
        List.intercalate_cons_cons
      rw [tokens, List.intercalate_cons_of_ne_nil (tokens_ne_nil _ _), ih, joined,
        List.append_assoc (item.text ++ [','])]

theorem render_eq (blank : Blank) (items : List Item) :
    render blank items = '{' :: [','].intercalate (tokens blank items) := by
  cases items with
  | nil =>
      rw [render, if_pos rfl, tokens, List.intercalate_singleton]
      rfl
  | cons item items =>
      rw [render, if_neg (List.cons_ne_nil item items), intercalate_tokens]
      rfl

theorem parseToken_brace (blank : Blank) : parseToken (blank.val ++ ['}']) = none := by
  have trimmed : trim (blank.val ++ ['}'] ++ []) = ['}'] ++ [].rdropWhile isSpace :=
    trim_append blank.property rfl rfl (by decide) (by decide) []
  rw [List.append_nil] at trimmed
  rw [parseToken, trimmed]
  rfl

/-- Each token gives the byte of its item, and a brace alone gives nothing. -/
theorem filterMap_tokens (blank : Blank) (items : List Item) :
    (tokens blank items).filterMap parseToken = items.map Item.byte := by
  have last : ∀ item : Item, parseToken (item.text ++ ['}']) = some item.byte :=
    fun item => item.parseToken_text fun c member => List.mem_singleton.mp member
  have inner : ∀ item : Item, parseToken item.text = some item.byte := by
    intro item
    have bare := item.parseToken_text (fun c (member : c ∈ []) => nomatch member)
    rwa [List.append_nil] at bare
  induction items with
  | nil => rw [tokens, List.filterMap_cons_none (parseToken_brace blank), List.filterMap_nil]; rfl
  | cons item items ih =>
      cases items with
      | nil => rw [tokens, List.filterMap_cons_some (last item), List.filterMap_nil]; rfl
      | cons next rest => rw [tokens, List.filterMap_cons_some (inner item), ih]; rfl

theorem comma_not_mem_text (item : Item) : ',' ∉ item.text := by
  intro member
  rw [Item.text, List.append_assoc, List.mem_append, List.cons_append, List.cons_append,
    List.mem_cons, List.mem_cons, List.mem_append] at member
  rcases member with space | zero | x | digit | space
  · exact absurd (item.before.property _ space) (by decide)
  · cases zero
  · have isX := item.isX
    rw [← x] at isX
    revert isX
    decide
  · exact absurd (item.hex _ digit) (by decide)
  · exact absurd (item.after.property _ space) (by decide)

theorem comma_not_mem_brace {text : List Char} (outside : ',' ∉ text) :
    ',' ∉ text ++ ['}'] := by
  rw [List.mem_append, not_or]
  exact ⟨outside, by decide⟩

theorem comma_not_mem_token {blank : Blank} {items : List Item} {token : List Char}
    (member : token ∈ tokens blank items) : ',' ∉ token := by
  induction items with
  | nil =>
      rw [List.mem_singleton.mp member]
      apply comma_not_mem_brace
      exact fun inside => absurd (blank.property _ inside) (by decide)
  | cons item items ih =>
      cases items with
      | nil =>
          rw [List.mem_singleton.mp member]
          exact comma_not_mem_brace (comma_not_mem_text item)
      | cons next rest =>
          rcases List.mem_cons.mp member with rfl | later
          · exact comma_not_mem_text item
          · exact ih later

theorem token_ne_nil {blank : Blank} {items : List Item} {token : List Char}
    (member : token ∈ tokens blank items) : token ≠ [] := by
  induction items with
  | nil =>
      rw [List.mem_singleton.mp member]
      exact List.concat_ne_nil _ _
  | cons item items ih =>
      cases items with
      | nil =>
          rw [List.mem_singleton.mp member]
          exact List.concat_ne_nil _ _
      | cons next rest =>
          rcases List.mem_cons.mp member with rfl | later
          · rw [Item.text]
            simp
          · exact ih later

theorem parseDataString_cons (rest : List Char) :
    parseDataString ('{' :: rest) = (getlines ',' rest.length rest).filterMap parseToken := by
  have opened : (if ('{' :: rest).head? = some '{' then ('{' :: rest).tail else '{' :: rest) =
      rest := if_pos rfl
  rw [parseDataString, opened, parseTokens_eq]

/-- `parseDataString` reads the bytes back from every rendering of them. -/
theorem parseDataString_render (blank : Blank) (items : List Item) :
    parseDataString (render blank items) = items.map Item.byte := by
  rw [render_eq, parseDataString_cons, getlines_intercalate, filterMap_tokens]
  · exact fun _ member => token_ne_nil member
  · exact fun _ member => comma_not_mem_token member
  · exact Nat.le_refl _

example : parseDataString "{0xEE, 0X1 , 0x80,0x0 }".toList = [0xEE, 0x1, 0x80, 0x0] := by
  decide +kernel

end SystemcTlm.TrafficGen
