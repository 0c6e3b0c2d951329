import Mathlib.Data.Bool.AllAny
import ReportSql.Output.Quoting
import ReportSql.Sql.Placeholder

/-!
How a text is cut into lexemes from its start, and the lexemes that names, literals, numbers and
operators are read as where what follows does not continue them.
-/
namespace ReportSql.Sql

open Lexer
open Text (isBlank)

/-- Lexemes that a text is read as, one after the other. -/
inductive Lexes : List Char → List Lexeme → Prop where
  | nil : Lexes [] []
  | cons {t source rest more} : source ≠ [] → token (source ++ rest) = some (t, rest) →
      Lexes rest more → Lexes (source ++ rest) (⟨t, source⟩ :: more)

theorem lexemesWithin_of_lexes {s : List Char} {ls : List Lexeme} (h : Lexes s ls) {n : Nat}
    (hn : s.length < n) : lexemesWithin n s = some ls := by
  induction h generalizing n with
  | nil => cases n <;> rfl
  | @cons t source rest more nonempty scanned _ ih =>
      obtain ⟨c, tail, rfl⟩ := List.exists_cons_of_ne_nil nonempty
      cases n with
      | zero => omega
      | succ n =>
          have shorter : rest.length < n := by
            simp only [List.length_append, List.length_cons] at hn
            omega
          have taken : (c :: tail ++ rest).take ((c :: tail ++ rest).length - rest.length) =
              c :: tail := by
            rw [List.length_append, Nat.add_sub_cancel]
            exact List.take_left
          rw [lexemesWithin, scanned]
          · simp only [ih shorter, taken, Option.map_some]
          · simp

theorem lexChars_of_lexes {s : List Char} {ls : List Lexeme} (h : Lexes s ls) :
    lexChars s = some ls :=
  lexemesWithin_of_lexes h (Nat.lt_succ_self _)

/-! ### Characters -/

/-- What holds of all ASCII characters can be checked one by one. -/
theorem ascii_induction {p : Char → Prop} (h : ∀ n : Fin 128, p (Char.ofNat n)) {c : Char}
    (hc : c.toNat < 128) : p c := by
  have := h ⟨c.toNat, hc⟩
  rwa [Char.ofNat_toNat] at this

/-- The characters that end a name, and an operator too. -/
def breaks : List Char := [' ', '\n', '(', ')', ',', '.', ':']

/-- Whether a text ends at once or goes on with one of some characters. -/
def StartsIn (cs s : List Char) : Prop := ∀ c ∈ s.head?, c ∈ cs

theorem takeWhile_append_of_ends {p : Char → Bool} {name rest : List Char}
    (hn : ∀ c ∈ name, p c = true) (hr : ∀ c ∈ rest.head?, p c = false) :
    (name ++ rest).takeWhile p = name := by
  rw [List.takeWhile_append_of_pos hn]
  cases rest with
  | nil => simp
  | cons c rest => simp [hr c rfl]

/-- Whether a character does not belong to a word before it: it neither goes on with the name nor
makes a letter the start of a literal. -/
def IsWordEnd (c : Char) : Prop := isNamePart c = false ∧ c ∉ ['\'', '"', '&']

instance : DecidablePred IsWordEnd := fun _ => inferInstanceAs (Decidable (_ ∧ _))

/-- Whether a text starts with nothing that belongs to a word before it. -/
def EndsWord (s : List Char) : Prop := ∀ c ∈ s.head?, IsWordEnd c

theorem endsWord_of_breaks {s : List Char} (hs : StartsIn breaks s) : EndsWord s := by
  have each : ∀ c ∈ breaks, IsWordEnd c := List.all_iff_forall_prop.mp (by decide +kernel)
  exact fun c hc => each c (hs c hc)

/-- A quote is no lexeme with the letter before it unless that letter is one of these. -/
theorem letteredToken_eq_none {c : Char} {s : List Char}
    (hc : c ∉ ['b', 'B', 'n', 'N', 'e', 'E', 'x', 'X', 'u', 'U']) :
    letteredToken (c :: s) = none := by
  simp only [List.mem_cons, List.not_mem_nil, or_false, not_or] at hc
  unfold letteredToken
  split <;> simp_all

theorem letteredToken_append {name rest : List Char} (hn : ∀ c ∈ name, isNamePart c = true)
    (hne : name ≠ []) (hr : EndsWord rest) : letteredToken (name ++ rest) = none := by
  have second : ∀ c d tail, name ++ rest = c :: d :: tail → d ∉ ['\'', '"', '&'] := by
    intro c d tail h
    match name, hne with
    | [_], _ =>
        cases h
        exact (hr d rfl).2
    | _ :: own :: _, _ =>
        cases h
        have part := hn d (by simp)
        intro quote
        have other : ∀ q ∈ ['\'', '"', '&'], isNamePart q = false :=
          List.all_iff_forall_prop.mp (by decide +kernel)
        rw [other d quote] at part
        cases part
  unfold letteredToken
  split
  · next h => exact absurd (by simp) (second _ _ _ h)
  · next h => exact absurd (by simp) (second _ _ _ h)
  · next h => exact absurd (by simp) (second _ _ _ h)
  · rfl

/-! ### Names -/

theorem isUpper_eq (c : Char) : c.isUpper = decide ('A'.val ≤ c.val ∧ c.val ≤ 'Z'.val) := rfl

theorem isAlpha_eq (c : Char) : c.isAlpha = (c.isUpper || c.isLower) := rfl

theorem plainPart_lt {c : Char} (h : Placeholder.isNamePart c = true) : c.toNat < 128 := by
  have codes : Placeholder.isNamePart c = (((decide ('A'.val ≤ c.val ∧ c.val ≤ 'Z'.val)
      || (decide ('a'.val ≤ c.val) && decide (c.val ≤ 'z'.val)))
      || (decide ('0'.val ≤ c.val) && decide (c.val ≤ '9'.val))) || c == '_') := rfl
  simp only [codes, Bool.or_eq_true, Bool.and_eq_true, decide_eq_true_eq, beq_iff_eq] at h
  rcases h with ((⟨-, h⟩ | ⟨-, h⟩) | ⟨-, h⟩) | rfl
  · exact Nat.lt_of_le_of_lt (show c.val.toNat ≤ 90 from h) (by decide)
  · exact Nat.lt_of_le_of_lt (show c.val.toNat ≤ 122 from h) (by decide)
  · exact Nat.lt_of_le_of_lt (show c.val.toNat ≤ 57 from h) (by decide)
  · decide

theorem plainPart_of_start {c : Char} (h : Placeholder.isNameStart c = true) :
    Placeholder.isNamePart c = true := by
  simp only [Placeholder.isNameStart, Placeholder.isNamePart, Char.isAlphanum,
    Bool.or_eq_true] at h ⊢
  exact h.imp_left .inl

theorem namePart_of_plain {c : Char} (h : Placeholder.isNamePart c = true) :
    Lexer.isNamePart c = true :=
  @ascii_induction (fun c => Placeholder.isNamePart c = true → Lexer.isNamePart c = true)
    (by decide +kernel) c (plainPart_lt h) h

/-- What a plain name starts with starts nothing else. -/
theorem plainStart_only {c : Char} (h : Placeholder.isNameStart c = true) :
    Lexer.isNameStart c = true ∧ isBlank c = false ∧ c.isDigit = false ∧
      c ∉ ['-', '/', '\'', '"', '$', '.', '%'] ∧ isOperatorChar c = false :=
  @ascii_induction (fun c => Placeholder.isNameStart c = true → Lexer.isNameStart c = true ∧
      isBlank c = false ∧ c.isDigit = false ∧ c ∉ ['-', '/', '\'', '"', '$', '.', '%'] ∧
      isOperatorChar c = false)
    (by decide +kernel) c (plainPart_lt (plainPart_of_start h)) h

theorem isName_cons {name : String} (h : Placeholder.isName name = true) :
    ∃ c tail, name.toList = c :: tail ∧ Placeholder.isNameStart c = true ∧
      ∀ d ∈ name.toList, Placeholder.isNamePart d = true := by
  unfold Placeholder.isName at h
  split at h
  · next c tail cons =>
    simp only [Bool.and_eq_true, List.all_eq_true] at h
    refine ⟨c, tail, cons, h.1, ?_⟩
    rw [cons]
    exact List.forall_mem_cons.mpr ⟨plainPart_of_start h.1, h.2⟩
  · cases h

/-- The lexeme of a name without quotes. -/
def wordLexeme (name : String) : Lexeme := ⟨.word name false, name.toList⟩

theorem token_word {name : String} {rest : List Char} (hn : Placeholder.isName name = true)
    (hr : EndsWord rest) :
    token (name.toList ++ rest) = some (.word name false, rest) := by
  obtain ⟨c, tail, cons, start, parts⟩ := isName_cons hn
  obtain ⟨nameStart, blank, digit, other, -⟩ := plainStart_only start
  have nameParts : ∀ d ∈ name.toList, Lexer.isNamePart d = true :=
    fun d hd => namePart_of_plain (parts d hd)
  have lettered := letteredToken_append nameParts (by simp [cons]) hr
  have scanned : wordToken (name.toList ++ rest) = (.word name false, rest) := by
    have taken := takeWhile_append_of_ends nameParts fun c hc => (hr c hc).1
    simp [wordToken, taken]
  rw [cons, List.cons_append] at lettered scanned ⊢
  simp only [List.mem_cons, List.not_mem_nil, or_false, not_or] at other
  unfold token
  rw [lettered]
  split <;> simp_all

/-! ### Quoted names and texts -/

theorem quotedBody_doubled {quote : Char} {s rest : List Char} (hr : rest.head? ≠ some quote) :
    quotedBody quote (Output.doubled quote s ++ quote :: rest) = some (s, rest) := by
  induction s with
  | nil =>
      cases rest with
      | nil => simp [Output.doubled, quotedBody]
      | cons d rest =>
          have : d ≠ quote := by simpa using hr
          simp [Output.doubled, quotedBody, this]
  | cons c s ih =>
      have first : Output.doubled quote (c :: s) =
          (if c == quote then [c, c] else [c]) ++ Output.doubled quote s := rfl
      rw [first]
      by_cases hc : c = quote
      · subst hc
        simp [quotedBody, ih]
      · rw [if_neg (by simpa using hc), List.cons_append, List.nil_append, List.cons_append,
          quotedBody.eq_def]
        simp only [beq_iff_eq, hc, if_false, ih, Option.map_some]

theorem head?_ne_of_startsIn {cs s : List Char} {c : Char} (hs : StartsIn cs s) (hc : c ∉ cs) :
    s.head? ≠ some c :=
  fun h => hc (hs c h)

/-- The lexeme of a name between quotes. -/
def quotedLexeme (name : String) : Lexeme :=
  ⟨.word name true, '"' :: Output.doubled '"' name.toList ++ ['"']⟩

def textLexeme (s : String) : Lexeme :=
  ⟨.text .plain s, '\'' :: Output.doubled '\'' s.toList ++ ['\'']⟩

theorem token_quoted {name : String} {rest : List Char} (hr : rest.head? ≠ some '"') :
    token ((quotedLexeme name).source ++ rest) = some (.word name true, rest) := by
  have body := @quotedBody_doubled '"' name.toList rest hr
  simp only [quotedLexeme, List.append_assoc, List.cons_append, List.nil_append]
  unfold token
  rw [letteredToken_eq_none (by decide)]
  simp [body]

theorem token_text {s : String} {rest : List Char} (hr : rest.head? ≠ some '\'') :
    token ((textLexeme s).source ++ rest) = some (.text .plain s, rest) := by
  have body := @quotedBody_doubled '\'' s.toList rest hr
  simp only [textLexeme, List.append_assoc, List.cons_append, List.nil_append]
  unfold token
  rw [letteredToken_eq_none (by decide)]
  simp [quotedToken, body]

/-! ### Numbers -/

/-- The characters that end a number. -/
def numberBreaks : List Char := [' ', '\n', ')', ',', ':']

/-- A number without an exponent, which may have decimal places. -/
def isNumeral (s : String) : Bool :=
  let whole := s.toList.takeWhile Char.isDigit
  !whole.isEmpty && match s.toList.dropWhile Char.isDigit with
    | [] => true
    | c :: places => c == '.' && places.all Char.isDigit

theorem isNumeral_parts {s : String} (h : isNumeral s = true) :
    ∃ whole point places, s.toList = whole ++ point ++ places ∧ whole ≠ [] ∧
      (∀ c ∈ whole, c.isDigit = true) ∧ (∀ c ∈ places, c.isDigit = true) ∧
      (point = [] ∧ places = [] ∨ point = ['.']) := by
  simp only [isNumeral, Bool.and_eq_true, Bool.not_eq_true', List.isEmpty_eq_false_iff] at h
  have split := List.takeWhile_append_dropWhile (p := Char.isDigit) (l := s.toList)
  have whole : ∀ c ∈ s.toList.takeWhile Char.isDigit, c.isDigit = true :=
    List.all_eq_true.mp List.all_takeWhile
  obtain ⟨nonempty, rest⟩ := h
  split at rest
  · next tail =>
    rw [tail] at split
    exact ⟨_, [], [], by simpa using split.symm, nonempty, whole, by simp, .inl ⟨rfl, rfl⟩⟩
  · next c places tail =>
    simp only [Bool.and_eq_true, beq_iff_eq, List.all_eq_true] at rest
    obtain ⟨rfl, digits⟩ := rest
    rw [tail] at split
    exact ⟨_, ['.'], places, by simpa using split.symm, nonempty, whole, digits, .inr rfl⟩

/-- A digit starts nothing but a number. -/
theorem digit_only {c : Char} (h : c.isDigit = true) :
    isBlank c = false ∧ isHexDigit c = true ∧
      c ∉ ['b', 'B', 'n', 'N', 'e', 'E', 'x', 'X', 'u', 'U', 'L'] ∧
      c ∉ ['-', '/', '\'', '"', '$', '.', '%'] ∧ isOperatorChar c = false := by
  have : Placeholder.isNamePart c = true := by
    simp only [Placeholder.isNamePart, Char.isAlphanum, h, Bool.or_true, Bool.true_or]
  exact @ascii_induction (fun c => c.isDigit = true → isBlank c = false ∧ isHexDigit c = true ∧
      c ∉ ['b', 'B', 'n', 'N', 'e', 'E', 'x', 'X', 'u', 'U', 'L'] ∧
      c ∉ ['-', '/', '\'', '"', '$', '.', '%'] ∧ isOperatorChar c = false)
    (by decide +kernel) c (plainPart_lt this) h

/-- What ends a number is no part of one. -/
theorem numberBreak_only {rest : List Char} (hr : StartsIn numberBreaks rest) :
    rest.takeWhile Char.isDigit = [] ∧ (rest.take 1).takeWhile (· == '.') = [] ∧
      exponent rest = [] ∧ ∀ c, rest.head? = some c → c ≠ 'L' ∧ c ≠ 'x' := by
  cases rest with
  | nil => exact ⟨rfl, rfl, rfl, by simp⟩
  | cons c rest =>
      have : ∀ c ∈ numberBreaks, c.isDigit = false ∧ (c == '.') = false ∧
          (c == 'e' || c == 'E') = false ∧ c ≠ 'L' ∧ c ≠ 'x' :=
        List.all_iff_forall_prop.mp (by decide)
      obtain ⟨digit, point, power, long, hex⟩ := this c (hr c rfl)
      refine ⟨by simp [digit], by simp [point], by simp [exponent, power], ?_⟩
      rintro _ ⟨⟩
      exact ⟨long, hex⟩

theorem numberToken_numeral {s : String} {rest : List Char} (h : isNumeral s = true)
    (hr : StartsIn numberBreaks rest) :
    numberToken (s.toList ++ rest) = (.number s false, rest) := by
  obtain ⟨whole, point, places, cut, nonempty, digits, decimals, shape⟩ := isNumeral_parts h
  obtain ⟨noDigit, noPoint, noPower, noLetter⟩ := numberBreak_only hr
  have wholeTaken : (s.toList ++ rest).takeWhile Char.isDigit = whole := by
    rw [cut, List.append_assoc, List.append_assoc, List.takeWhile_append_of_pos digits]
    rcases shape with ⟨rfl, rfl⟩ | rfl
    · simpa using noDigit
    · simp
  have wholeDropped : (s.toList ++ rest).drop whole.length = point ++ (places ++ rest) := by
    simp [cut]
  have notHex : ∀ after, point ++ (places ++ rest) ≠ 'x' :: after := by
    intro after hx
    rcases shape with ⟨rfl, rfl⟩ | rfl
    · exact (noLetter 'x' (by rw [show rest = 'x' :: after from hx]; rfl)).2 rfl
    · cases hx
  have pointTaken : ((point ++ (places ++ rest)).take 1).takeWhile (· == '.') = point := by
    rcases shape with ⟨rfl, rfl⟩ | rfl
    · simpa using noPoint
    · simp
  have placesTaken : (places ++ rest).takeWhile Char.isDigit = places := by
    rw [List.takeWhile_append_of_pos decimals, noDigit, List.append_nil]
  have notPoint : (s.toList == ['.']) = false := by
    rw [cut, beq_eq_false_iff_ne]
    intro only
    obtain ⟨c, tail, rfl⟩ := List.exists_cons_of_ne_nil nonempty
    have := (digit_only (digits c (by simp))).2.2.2.1
    simp_all
  unfold numberToken
  simp only [wholeTaken, wholeDropped]
  split
  · next hx => exact absurd hx (notHex _)
  · simp only [pointTaken, List.drop_left, placesTaken, noPower, List.append_nil, List.length_nil,
      List.drop_zero, ← cut, String.ofList_toList, notPoint, Bool.false_eq_true, if_false]
    split
    · exact absurd rfl (noLetter 'L' rfl).1
    · rfl

theorem token_number {s : String} {rest : List Char} (h : isNumeral s = true)
    (hr : StartsIn numberBreaks rest) :
    token (s.toList ++ rest) = some (.number s false, rest) := by
  have scanned := numberToken_numeral h hr
  obtain ⟨whole, point, places, cut, nonempty, digits, -⟩ := isNumeral_parts h
  obtain ⟨c, tail, rfl⟩ := List.exists_cons_of_ne_nil nonempty
  have digit := digits c (by simp)
  obtain ⟨blank, -, lettered, other, -⟩ := digit_only digit
  rw [cut] at scanned ⊢
  simp only [List.cons_append] at scanned ⊢
  have lettered := @letteredToken_eq_none c (tail ++ point ++ places ++ rest) (by simp_all)
  simp only [List.mem_cons, List.not_mem_nil, or_false, not_or] at other
  unfold token
  rw [lettered]
  split <;> simp_all

/-! ### Operators and blanks -/

/-- An operator ends where no further operator characters follow. -/
theorem extended_of_breaks {sym : Symbol} {rest : List Char}
    (hr : ∀ c ∈ rest.head?, isOperatorChar c = false) :
    extended sym rest = some (.symbol sym, rest) := by
  have : rest.takeWhile isOperatorChar = [] := by
    cases rest with
    | nil => rfl
    | cons c rest => simp [hr c rfl]
  unfold extended
  rw [this]

/-- Punctuation and operators that start with one of these are read as they stand. -/
theorem token_symbol {c : Char} {s : List Char}
    (hc : c ∈ ['+', '*', '=', '<', '>', '%', '|', '(', ')', ',', ':']) :
    token (c :: s) = match symbolToken (c :: s) with
      | some scanned => some scanned
      | none => some (.stray c, s) := by
  have other : ∀ c ∈ ['+', '*', '=', '<', '>', '%', '|', '(', ')', ',', ':'],
      c ∉ ['b', 'B', 'n', 'N', 'e', 'E', 'x', 'X', 'u', 'U'] :=
    List.all_iff_forall_prop.mp (by decide)
  have lettered := @letteredToken_eq_none c s (other c hc)
  simp only [List.mem_cons, List.not_mem_nil, or_false] at hc
  unfold token
  rw [lettered]
  rcases hc with rfl | rfl | rfl | rfl | rfl | rfl | rfl | rfl | rfl | rfl | rfl <;> rfl

theorem token_blank {c : Char} {rest : List Char} (hc : c = ' ' ∨ c = '\n') :
    token (c :: rest) = some (.blank, rest) := by
  rcases hc with rfl | rfl
  all_goals
    unfold token
    rw [letteredToken_eq_none (by decide)]
    rfl

theorem symbolToken_minus {rest : List Char} (hr : ∀ c ∈ rest.head?, isOperatorChar c = false) :
    symbolToken ('-' :: rest) = some (.symbol .minus, rest) := by
  have greater : ∀ more, rest ≠ '>' :: more := by
    rintro more rfl
    exact absurd (hr '>' rfl) (by decide)
  rw [symbolToken]
  · exact extended_of_breaks hr
  · exact fun more h => greater _ h
  · exact fun more h => greater _ h

theorem token_minus {rest : List Char} (hr : ∀ c ∈ rest.head?, isOperatorChar c = false) :
    token ('-' :: rest) = some (.symbol .minus, rest) := by
  have scanned := symbolToken_minus hr
  unfold token
  rw [letteredToken_eq_none (by decide), scanned]
  simp only
  split
  · next h => cases h
  · next h =>
    obtain ⟨-, rfl⟩ := List.cons.inj h
    exact absurd (hr '-' rfl) (by decide)
  · next h => cases h
  · next h => cases h
  · next h => cases h
  · next h => cases h
  · next h =>
    cases h
    rfl

end ReportSql.Sql
