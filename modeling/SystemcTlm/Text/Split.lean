import SystemcTlm.Text.Scan

/-!
# Tokens of a text

The lines that a loop over `getline` reads are the pieces of the whole text
between the delimiters, and characters around a text reach its first and last
piece only.  Behind a numeral, `stoul` stops at the first character that cannot
go on with it.
-/

namespace SystemcTlm.Text

variable {delim : Char} {front text tail : List Char}

/-! ## Pieces -/

/-- Without the delimiter, a text in front goes to the first piece. -/
theorem splitOn_append_left (outside : delim ∉ front) :
    (front ++ text).splitOn delim = (text.splitOn delim).modifyHead (front ++ ·) := by
  induction front with
  | nil => exact (congrFun List.modifyHead_id _).symm
  | cons c front ih =>
      have distinct : (c == delim) ≠ true :=
        fun same => outside (beq_iff_eq.mp same ▸ List.mem_cons_self)
      rw [List.cons_append, List.splitOn_cons_eq_if_modifyHead, if_neg distinct,
        ih fun later => outside (List.mem_cons_of_mem c later)]
      cases text.splitOn delim <;> rfl

/-- Without the delimiter, a text behind goes to the last piece. -/
theorem splitOn_append_right (outside : delim ∉ tail) (text : List Char) :
    ∃ init last, text.splitOn delim = init ++ [last] ∧
      (text ++ tail).splitOn delim = init ++ [last ++ tail] := by
  induction text with
  | nil => exact ⟨[], [], List.splitOn_nil delim, List.splitOn_eq_singleton outside⟩
  | cons c text ih =>
      rcases ih with ⟨init, last, pieces, extended⟩
      rw [List.cons_append, List.splitOn_cons_eq_if_modifyHead,
        List.splitOn_cons_eq_if_modifyHead, pieces, extended]
      split_ifs with separates
      · exact ⟨[] :: init, last, rfl, rfl⟩
      · cases init with
        | nil => exact ⟨[], c :: last, rfl, rfl⟩
        | cons first init => exact ⟨(c :: first) :: init, last, rfl, rfl⟩

/-- The loop over `getline` reads the pieces, but no empty one at the end. -/
theorem getlines_eq_splitOn {stream : List Char} {passes : Nat}
    (enough : stream.length ≤ passes) :
    getlines delim passes stream = stream.splitOn delim ∨
      getlines delim passes stream ++ [[]] = stream.splitOn delim := by
  induction passes generalizing stream with
  | zero =>
      rw [List.length_eq_zero_iff.mp (Nat.le_zero.mp enough)]
      exact Or.inr rfl
  | succ passes ih =>
      by_cases separated : delim ∈ stream
      · rcases List.eq_append_cons_of_mem separated with ⟨line, rest, rfl, outside⟩
        rw [List.length_append, List.length_cons] at enough
        rw [getlines, getline_append_cons outside,
          List.splitOn_append_cons_self_of_not_mem outside]
        dsimp only
        have shorter : rest.length ≤ passes := by omega
        rcases ih shorter with lines | lines
        · exact Or.inl (congrArg _ lines)
        · exact Or.inr (congrArg _ lines)
      · rw [List.splitOn_eq_singleton separated]
        by_cases empty : stream = []
        · exact Or.inr (by rw [empty]; rfl)
        · rw [getlines, getline_of_not_mem empty separated]
          exact Or.inl (by cases passes <;> rfl)

/-- A function that finds nothing in an empty line finds the same in the lines
and in the pieces. -/
theorem getlines_bind_eq {α : Type*} {parse : List Char → Option α} (empty : parse [] = none)
    (delim : Char) (stream : List Char) (k : Nat) :
    (getlines delim stream.length stream)[k]?.bind parse =
      (stream.splitOn delim)[k]?.bind parse := by
  rcases @getlines_eq_splitOn delim stream _ (Nat.le_refl _) with lines | lines
  · rw [lines]
  · rw [← lines, List.getElem?_append]
    split_ifs with inside
    · rfl
    · rw [List.getElem?_eq_none (Nat.not_lt.mp inside)]
      cases k - (getlines delim stream.length stream).length with
      | zero => exact empty.symm
      | succ k => rfl

theorem getlines_filterMap_eq {α : Type*} {parse : List Char → Option α}
    (empty : parse [] = none) (delim : Char) (stream : List Char) :
    (getlines delim stream.length stream).filterMap parse =
      (stream.splitOn delim).filterMap parse := by
  rcases @getlines_eq_splitOn delim stream _ (Nat.le_refl _) with lines | lines
  · rw [lines]
  · rw [← lines, List.filterMap_append, List.filterMap_cons_none empty, List.filterMap_nil,
      List.append_nil]

/-! ## Blanks around a text -/

theorem eq_append_trim (text : List Char) :
    ∃ before after, (∀ c, c ∈ before → isSpace c = true) ∧ (∀ c, c ∈ after → isSpace c = true) ∧
      text = before ++ trim text ++ after := by
  refine ⟨text.takeWhile isSpace, (text.dropWhile isSpace).rtakeWhile isSpace,
    fun c member => List.mem_takeWhile_imp member,
    fun c member => List.mem_rtakeWhile_imp member, ?_⟩
  rw [trim, List.append_assoc, List.rdropWhile_append_rtakeWhile,
    List.takeWhile_append_dropWhile]

theorem trim_head_black {c : Char} (head : (trim text).head? = some c) : isSpace c = false := by
  have isPrefix : trim text <+: text.dropWhile isSpace := List.rdropWhile_prefix isSpace _
  rcases List.head?_eq_some_iff.mp head with ⟨rest, core⟩
  rcases isPrefix with ⟨after, split⟩
  rw [core, List.cons_append] at split
  have first : (text.dropWhile isSpace).head? = some c := by rw [← split]; rfl
  have black := List.head?_dropWhile_not isSpace text
  rw [first] at black
  simpa using black

theorem trim_last_black {c : Char} (last : (trim text).getLast? = some c) : isSpace c = false := by
  rcases List.getLast?_eq_some_iff.mp last with ⟨init, core⟩
  have nonempty : trim text ≠ [] := by rw [core]; exact List.concat_ne_nil _ _
  have black := List.rdropWhile_last_not isSpace (text.dropWhile isSpace) nonempty
  have final : (trim text).getLast nonempty = c := by
    rw [List.getLast?_eq_some_getLast nonempty] at last
    exact Option.some.inj last
  rw [← Bool.not_eq_true, ← final]
  exact black

/-- Blanks in front of a text are cut, and of what stands behind it only blanks
can be. -/
theorem exists_trim_append (spaces : ∀ c, c ∈ front → isSpace c = true)
    (text tail : List Char) :
    ∃ rest, trim (front ++ text ++ tail) = trim text ++ rest ∧
      ∀ c, c ∈ rest → c ∈ tail ∨ isSpace c = true := by
  rcases eq_append_trim text with ⟨before, after, beforeSpaces, afterSpaces, split⟩
  have frontSpaces : ∀ c, c ∈ front ++ before → isSpace c = true := fun c member =>
    (List.mem_append.mp member).elim (spaces c) (beforeSpaces c)
  have whole : front ++ text ++ tail = front ++ before ++ trim text ++ (after ++ tail) := by
    conv_lhs => rw [split]
    simp only [List.append_assoc]
  have kept : ∀ c, c ∈ after ++ tail → c ∈ tail ∨ isSpace c = true := fun c member =>
    (List.mem_append.mp member).elim (fun inside => Or.inr (afterSpaces c inside)) Or.inl
  rw [whole]
  cases core : trim text with
  | nil =>
      refine ⟨trim (front ++ before ++ [] ++ (after ++ tail)), rfl, fun c member => ?_⟩
      have inside := (List.dropWhile_sublist isSpace).subset
        ((List.rdropWhile_prefix isSpace _).subset member)
      rw [List.append_nil] at inside
      exact (List.mem_append.mp inside).elim (fun early => Or.inr (frontSpaces c early)) (kept c)
  | cons first rest =>
      have black := @trim_head_black text first (by rw [core]; rfl)
      have final := List.getLast?_eq_some_getLast (List.cons_ne_nil first rest)
      have finalBlack := @trim_last_black text _ (by rw [core, final])
      refine ⟨(after ++ tail).rdropWhile isSpace,
        trim_append frontSpaces rfl final black finalBlack _, fun c member => ?_⟩
      exact kept c ((List.rdropWhile_prefix isSpace _).subset member)

/-! ## Where a numeral stops -/

/-- A character that neither begins a numeral nor goes on with one. -/
def StopsNumeral (c : Char) : Prop :=
  isHexDigit c = false ∧ ¬ IsX c ∧ c ≠ '-' ∧ c ≠ '+'

theorem space_stops {c : Char} (space : isSpace c = true) : StopsNumeral c := by
  rcases space_distinct space with ⟨notHex, notX⟩
  refine ⟨notHex, notX, ?_, ?_⟩
  · rintro rfl
    exact absurd space (by decide)
  · rintro rfl
    exact absurd space (by decide)

section Stops

variable (stops : ∀ c, c ∈ tail → StopsNumeral c)

include stops

theorem dropHexPrefix_append (text : List Char) :
    dropHexPrefix (text ++ tail) = dropHexPrefix text ++ tail := by
  match text with
  | [] =>
      match tail, stops with
      | [], _ => rfl
      | [c], _ => rfl
      | c :: x :: rest, stops =>
          rw [List.nil_append, dropHexPrefix, if_neg]
          · rfl
          · exact fun isPrefix => (stops x (by simp)).2.1 isPrefix.2
  | [zero] =>
      cases tail with
      | nil => rfl
      | cons x rest =>
          rw [List.singleton_append, dropHexPrefix, if_neg]
          · rfl
          · exact fun isPrefix => (stops x List.mem_cons_self).2.1 isPrefix.2
  | zero :: x :: rest =>
      rw [List.cons_append, List.cons_append, dropHexPrefix, dropHexPrefix]
      split_ifs <;> rfl

theorem sign_append (text : List Char) :
    sign (text ++ tail) = ((sign text).1, (sign text).2 ++ tail) := by
  cases text with
  | nil =>
      have unsigned : ∀ c, tail.head? = some c → c ≠ '-' ∧ c ≠ '+' := fun c head =>
        (stops c (List.mem_of_head? head)).2.2
      rw [List.nil_append, sign, if_neg fun minus => (unsigned _ minus).1 rfl,
        if_neg fun plus => (unsigned _ plus).2 rfl]
      rfl
  | cons c text =>
      rw [sign, sign, List.cons_append, List.head?_cons, List.head?_cons]
      split_ifs <;> rfl

theorem takeWhile_hex_append (text : List Char) :
    (text ++ tail).takeWhile isHexDigit = text.takeWhile isHexDigit := by
  rw [List.takeWhile_append]
  split_ifs with all
  · have stopped : tail.takeWhile isHexDigit = [] := by
      cases tail with
      | nil => rfl
      | cons c rest =>
          exact List.takeWhile_cons_of_neg
            (Bool.not_eq_true _ ▸ (stops c List.mem_cons_self).1)
    rw [stopped, List.append_nil]
    exact ((List.takeWhile_prefix isHexDigit).eq_of_length all).symm
  · rfl

theorem leadingDigits_append (text : List Char) :
    leadingDigits (text ++ tail) = leadingDigits text := by
  have begins : ∀ body : List Char,
      (body ++ tail).head?.any isHexDigit = body.head?.any isHexDigit := by
    intro body
    cases body with
    | nil =>
        cases tail with
        | nil => rfl
        | cons c rest => exact (stops c List.mem_cons_self).1
    | cons c body => rfl
  rw [leadingDigits, leadingDigits, dropHexPrefix_append stops, begins]
  split_ifs
  · exact takeWhile_hex_append stops _
  · exact takeWhile_hex_append stops _

end Stops

/-- The digits that `stoul` reads. -/
def stoulDigits (text : List Char) : List Char :=
  leadingDigits (sign (text.dropWhile isSpace)).2

theorem stoulHex_eq (text : List Char) :
    stoulHex text =
      if stoulDigits text = [] ∨ ulongRange ≤ hexValue (stoulDigits text) then none
      else if (sign (text.dropWhile isSpace)).1 then
        some ((ulongRange - hexValue (stoulDigits text)) % ulongRange)
      else some (hexValue (stoulDigits text)) :=
  rfl

theorem stoulHex_isSome_iff (text : List Char) :
    (stoulHex text).isSome ↔
      stoulDigits text ≠ [] ∧ hexValue (stoulDigits text) < ulongRange := by
  rw [stoulHex_eq]
  split_ifs with throws negative
  · refine iff_of_false Bool.false_ne_true fun reads => ?_
    exact throws.elim reads.1 (Nat.not_le.mpr reads.2)
  · exact iff_of_true rfl ((not_or.mp throws).imp id Nat.not_le.mp)
  · exact iff_of_true rfl ((not_or.mp throws).imp id Nat.not_le.mp)

/-- `stoul` reads no further than characters that stop a numeral. -/
theorem stoulHex_append (stops : ∀ c, c ∈ tail → StopsNumeral c) (text : List Char) :
    stoulHex (text ++ tail) = stoulHex text := by
  have black : ∀ body rest : List Char, (∀ c, c ∈ rest → StopsNumeral c) →
      (text ++ tail).dropWhile isSpace = body ++ rest → text.dropWhile isSpace = body →
      stoulHex (text ++ tail) = stoulHex text := by
    intro body rest restStops whole core
    rw [stoulHex, stoulHex, whole, core, sign_append restStops]
    dsimp only
    rw [leadingDigits_append restStops]
  cases core : text.dropWhile isSpace with
  | nil =>
      have spaces := List.dropWhile_eq_nil_iff.mp core
      refine black [] (tail.dropWhile isSpace) ?_ ?_ core
      · exact fun c member => stops c ((List.dropWhile_sublist isSpace).subset member)
      · exact List.dropWhile_append_of_pos spaces
  | cons c rest =>
      refine black (c :: rest) tail stops ?_ core
      rw [List.dropWhile_append, core]
      rfl

end SystemcTlm.Text
