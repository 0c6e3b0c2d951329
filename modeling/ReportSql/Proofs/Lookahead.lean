import ReportSql.Proofs.Scanners

/-!
How far lexemes look at the text after them. A lexeme is read again from its characters wherever
the text after them can follow it, so that the lexemes of a text are all of it, and a part of a text
between two lexemes is cut as it was in the whole.
-/
namespace ReportSql.Sql

open Lexer
open Text (isBlank)

variable {s r r' run body x y : List Char} {c q : Char} {t : Token} {l : Lexeme}
  {ls ms : List Lexeme}

/-! ### Tokens -/

/-- Whether a scanner reads what is before some quote, and the quote, as the same body before any
text that goes on with another character. -/
def ReadsBody (q : Char) (scan : List Char → Option (List Char × List Char)) : Prop :=
  ∀ s body r, scan s = some (body, r) → ∃ run, s = run ++ q :: r ∧ r.head? ≠ some q ∧
    ∀ r', r'.head? ≠ some q → scan (run ++ q :: r') = some (body, r')

theorem quotedBody_reads : ReadsBody q (quotedBody q) := fun _ _ _ => quotedBody_runs

theorem backslashBody_reads : ReadsBody '\'' backslashBody := fun _ _ _ => backslashBody_runs

theorem escapedBody_reads : ReadsBody '\'' fun s => escapedBody (s.length + 1) s := by
  intro s body r h
  obtain ⟨run, cut, last, again⟩ := escapedBody_runs h
  exact ⟨run, cut, last, fun r' => again _ r' (by simp only [List.length_append]; omega)⟩

theorem unicodeBody_reads : ReadsBody '\'' fun s => unicodeBody (s.length + 1) s := by
  intro s body r h
  obtain ⟨run, cut, last, again⟩ := unicodeBody_runs h
  exact ⟨run, cut, last, fun r' => again _ r' (by simp only [List.length_append]; omega)⟩

/-- Whether a quote right after a lexeme would belong to it. -/
def takesQuote (run : List Char) : Bool :=
  run.getLast? == some '\'' ||
    [['b'], ['B'], ['n'], ['N'], ['e'], ['E'], ['x'], ['X']].contains run

/-- Whether a lexeme that was read before one text is read before another one too. -/
structure Follows (run r r' : List Char) : Prop where
  like : GoesOnLike r r'
  ends : r = [] → r' = []
  power : exponent r = [] → exponent r' = []
  quote : takesQuote run = true → r'.head? = some '\'' → r.head? = some '\''
  ampersand : run ∈ [['u'], ['U']] → ['&', '\''] <+: r' → ['&', '\''] <+: r

theorem letteredToken_quote :
    letteredToken (c :: '\'' :: s) = none ↔ c ∉ ['b', 'B', 'n', 'N', 'e', 'E', 'x', 'X'] := by
  simp only [letteredToken, List.mem_cons, List.not_mem_nil, or_false, not_or]
  grind

theorem letteredToken_double :
    letteredToken (c :: '"' :: s) = none ↔ c ∉ ['b', 'B'] := by
  simp [letteredToken]

theorem letteredToken_ampersand :
    letteredToken (c :: '&' :: '\'' :: s) = none ↔ c ∉ ['u', 'U'] := by
  simp [letteredToken]

theorem letteredToken_other (quote : s.head? ≠ some '\'') (double : s.head? ≠ some '"')
    (ampersand : ¬ ['&', '\''] <+: s) : letteredToken (c :: s) = none := by
  unfold letteredToken
  split <;> simp_all

theorem letteredToken_again {name : List Char} (parts : ∀ c ∈ name, isNamePart c = true)
    (hn : name ≠ []) (h : letteredToken (name ++ r) = none) (hr : Follows name r r') :
    letteredToken (name ++ r') = none := by
  match name, hn with
  | c :: d :: name, _ =>
      have none : ∀ e ∈ ['\'', '"', '&'], isNamePart e = false :=
        List.all_iff_forall_prop.mp (by decide)
      have second : d ∉ ['\'', '"', '&'] := fun mem => by
        have part := parts d (by simp)
        rw [none d mem] at part
        cases part
      simp only [List.mem_cons, List.not_mem_nil, or_false, not_or] at second
      exact letteredToken_other (by simp [second]) (by simp [second]) (by simp [second, eq_comm])
  | [c], _ =>
      rw [List.singleton_append] at h ⊢
      by_cases quote : r'.head? = some '\''
      · obtain ⟨after, rfl⟩ := List.head?_eq_some_iff.mp quote
        refine letteredToken_quote.mpr fun letter => ?_
        have takes : ∀ c ∈ ['b', 'B', 'n', 'N', 'e', 'E', 'x', 'X'], takesQuote [c] = true :=
          List.all_iff_forall_prop.mp (by decide)
        obtain ⟨own, rfl⟩ := List.head?_eq_some_iff.mp (hr.quote (takes c letter) rfl)
        exact letteredToken_quote.mp h letter
      by_cases double : r'.head? = some '"'
      · obtain ⟨after, rfl⟩ := List.head?_eq_some_iff.mp double
        obtain ⟨own, rfl⟩ := List.head?_eq_some_iff.mp ((hr.like '"' rfl).resolve_left (by decide))
        exact letteredToken_double.mpr (letteredToken_double.mp h)
      by_cases ampersand : ['&', '\''] <+: r'
      · obtain ⟨after, rfl⟩ := ampersand
        refine letteredToken_ampersand.mpr fun letter => ?_
        obtain ⟨own, rfl⟩ := hr.ampersand (by simpa using letter) ⟨after, rfl⟩
        exact letteredToken_ampersand.mp h letter
      exact letteredToken_other quote double ampersand

theorem letteredToken_cases {scanned : Option (Token × List Char)}
    (h : letteredToken s = some scanned) : ∃ opening form q scan after, opening ≠ [] ∧
      s = opening ++ after ∧ q ∈ ['\'', '"'] ∧ ReadsBody q scan ∧
      ∀ x, letteredToken (opening ++ x) = some (quotedToken form (scan x)) := by
  unfold letteredToken at h
  split at h
  · next c after =>
    refine ⟨[c, '\''], ?_⟩
    split at h
    · next bits =>
      exact ⟨.bits, '\'', _, after, nofun, rfl, by simp, quotedBody_reads, fun x => if_pos bits⟩
    split at h
    · next bits national =>
      exact ⟨.national, '\'', _, after, nofun, rfl, by simp, backslashBody_reads,
        fun x => (if_neg bits).trans (if_pos national)⟩
    split at h
    · next bits national escaped =>
      exact ⟨.escaped, '\'', _, after, nofun, rfl, by simp, escapedBody_reads,
        fun x => (if_neg bits).trans ((if_neg national).trans (if_pos escaped))⟩
    split at h
    · next bits national escaped hex =>
      exact ⟨.hex, '\'', _, after, nofun, rfl, by simp, backslashBody_reads,
        fun x => (if_neg bits).trans ((if_neg national).trans ((if_neg escaped).trans
          (if_pos hex)))⟩
    · cases h
  · next c after =>
    split at h
    · next bits =>
      exact ⟨[c, '"'], .doubleBits, '"', _, after, nofun, rfl, by simp, quotedBody_reads,
        fun x => if_pos bits⟩
    · cases h
  · next c after =>
    split at h
    · next unicode =>
      exact ⟨[c, '&', '\''], .unicode, '\'', _, after, nofun, rfl, by simp, unicodeBody_reads,
        fun x => if_pos unicode⟩
    · cases h
  · cases h

/-- A body is read again where no quote follows that belongs to it. -/
theorem ReadsBody.runs {scan : List Char → Option (List Char × List Char)}
    (reads : ReadsBody q scan) (hq : q ∈ ['\'', '"']) (h : scan s = some (body, r)) :
    ∃ run, s = run ++ r ∧ ∀ before r', Follows (before ++ run) r r' →
      scan (run ++ r') = some (body, r') := by
  obtain ⟨run, rfl, last, again⟩ := reads _ _ _ h
  refine ⟨run ++ [q], by simp, fun before r' follows => ?_⟩
  have ends : r'.head? ≠ some q := by
    simp only [List.mem_cons, List.not_mem_nil, or_false] at hq
    obtain rfl | rfl := hq
    · exact fun quote => last (follows.quote (by simp [takesQuote]) quote)
    · exact follows.like.head?_ne (by decide) last
  rw [List.append_assoc, List.singleton_append, again r' ends]

theorem of_quotedToken {form : TextForm} {x : Option (List Char × List Char)}
    (h : quotedToken form x = some (t, r)) :
    ∃ body, x = some (body, r) ∧ .text form (String.ofList body) = t := by
  unfold quotedToken at h
  exact of_map_body h

/-- What is left where no literal, name in quotes or comment starts. -/
theorem plain_start (line : ∀ r, c = '-' → s = '-' :: r → False)
    (block : ∀ r, c = '/' → s = '*' :: r → False) (single : c = '\'' → False)
    (double : c = '"' → False) (dollar : c = '$' → False) :
    c ∉ ['\'', '"', '$'] ∧ ¬ ['-', '-'] <+: c :: s ∧ ¬ ['/', '*'] <+: c :: s := by
  refine ⟨?_, fun ⟨more, start⟩ => ?_, fun ⟨more, start⟩ => ?_⟩
  · simp only [List.mem_cons, List.not_mem_nil, or_false]
    rintro (rfl | rfl | rfl)
    · exact single rfl
    · exact double rfl
    · exact dollar rfl
  · exact line more (List.cons.inj start).1.symm (List.cons.inj start).2.symm
  · exact block more (List.cons.inj start).1.symm (List.cons.inj start).2.symm

/-- Text that starts no literal, name in quotes or comment. -/
theorem token_plain (lettered : letteredToken (c :: s) = none)
    (hc : c ∉ ['\'', '"', '$']) (line : ¬ ['-', '-'] <+: c :: s) (block : ¬ ['/', '*'] <+: c :: s) :
    token (c :: s) =
      if isBlank c then some (.blank, s)
      else if c.isDigit || c == '.' then some (numberToken (c :: s))
      else if isNameStart c then some (wordToken (c :: s))
      else match symbolToken (c :: s) with
        | some scanned => some scanned
        | none => some (.stray c, s) := by
  simp only [List.mem_cons, List.not_mem_nil, or_false, not_or] at hc
  unfold token
  simp only [lettered]
  split
  · next none => cases none
  · next start => exact absurd ⟨_, start.symm⟩ line
  · next start => exact absurd ⟨_, start.symm⟩ block
  · next start => exact absurd (List.cons.inj start).1 hc.1
  · next start => exact absurd (List.cons.inj start).1 hc.2.1
  · next start => exact absurd (List.cons.inj start).1 hc.2.2
  · next start =>
    cases start
    rfl

/-- The letters that a quote can follow in a literal start words. -/
theorem letter_starts : ∀ c ∈ ['b', 'B', 'n', 'N', 'e', 'E', 'x', 'X', 'u', 'U'],
    isBlank c = false ∧ (c.isDigit || c == '.') = false ∧ isNameStart c = true :=
  List.all_iff_forall_prop.mp (by decide)

/-- A number, a word, punctuation, a blank or a stray character. -/
theorem plainToken_runs (lettered : letteredToken (c :: s) = none)
    (hc : c ∉ ['\'', '"', '$']) (line : ¬ ['-', '-'] <+: c :: s) (block : ¬ ['/', '*'] <+: c :: s)
    (h : token (c :: s) = some (t, r)) : ∃ run, run ≠ [] ∧ c :: s = run ++ r ∧
      ∀ r', Follows run r r' → token (run ++ r') = some (t, r') := by
  -- What the run starts is decided by its own characters and by what the text goes on with.
  have again : ∀ run r', c :: s = c :: run ++ r → Follows (c :: run) r r' →
      letteredToken (c :: (run ++ r')) = none → _ := fun run r' cut follows lettered' =>
    token_plain lettered' hc
      (follows.like.not_prefix (by decide) (List.cons_ne_nil c run) (cut ▸ line))
      (follows.like.not_prefix (by decide) (List.cons_ne_nil c run) (cut ▸ block))
  rw [token_plain lettered hc line block] at h
  split at h
  · next blank =>
    cases h
    refine ⟨[c], nofun, rfl, fun r' follows => ?_⟩
    exact (again [] r' rfl follows (letteredToken_eq_none fun mem => by
      simp [letter_starts c mem] at blank)).trans (if_pos blank)
  next noBlank =>
  split at h
  · next digit =>
    obtain ⟨run, cut, starts, read⟩ := numberToken_runs (Option.some.inj h)
    obtain ⟨rfl, -⟩ | ⟨run, rfl, rest⟩ := List.cons_eq_append_iff.mp cut
    · rw [starts rfl c rfl] at digit
      cases digit
    refine ⟨c :: run, nofun, cut, fun r' follows => ?_⟩
    have plain := again run r' cut follows (letteredToken_eq_none fun mem => by
      simp [letter_starts c mem] at digit)
    rw [List.cons_append, plain, if_neg noBlank, if_pos digit]
    exact congrArg some (read r' follows.like follows.power)
  next noDigit =>
  split at h
  · next start =>
    obtain ⟨run, cut, parts, stops, read⟩ := wordToken_runs (Option.some.inj h)
    obtain ⟨rfl, rfl⟩ | ⟨run, rfl, rest⟩ := List.cons_eq_append_iff.mp cut
    · have part : isNamePart c = true := by
        simp only [isNameStart, Bool.or_eq_true] at start
        simp only [isNamePart, Bool.or_eq_true]
        exact start.imp_left fun letter => .inl (.inl letter)
      rw [List.takeWhile_cons_of_pos part] at stops
      cases stops
    refine ⟨c :: run, nofun, cut, fun r' follows => ?_⟩
    have plain := again run r' cut follows
      (letteredToken_again parts (List.cons_ne_nil c run) (cut ▸ lettered) follows)
    rw [List.cons_append, plain, if_neg noBlank, if_neg noDigit, if_pos start]
    exact congrArg some (read r' follows.like)
  next noStart =>
  have noLetter : c ∉ ['b', 'B', 'n', 'N', 'e', 'E', 'x', 'X', 'u', 'U'] := fun mem =>
    noStart (letter_starts c mem).2.2
  split at h
  · next scanned symbol =>
    cases h
    obtain ⟨run, nonempty, cut, read⟩ := symbolToken_runs symbol
    obtain ⟨rfl, -⟩ | ⟨run, rfl, rest⟩ := List.cons_eq_append_iff.mp cut
    · exact absurd rfl nonempty
    refine ⟨c :: run, nofun, cut, fun r' follows => ?_⟩
    have plain := again run r' cut follows (letteredToken_eq_none noLetter)
    have same : symbolToken (c :: (run ++ r')) = some (t, r') := read r' follows.like follows.ends
    rw [List.cons_append, plain, if_neg noBlank, if_neg noDigit, if_neg noStart, same]
  · next noSymbol =>
    cases h
    refine ⟨[c], nofun, rfl, fun r' follows => ?_⟩
    have plain := again [] r' rfl follows (letteredToken_eq_none noLetter)
    have same : symbolToken (c :: ([] ++ r')) = none := symbolToken_none noSymbol r'
    rw [List.cons_append, plain, if_neg noBlank, if_neg noDigit, if_neg noStart, same]
    rfl

/-- The run of characters that a token is read from is read as the token again. -/
theorem token_runs (h : token s = some (t, r)) : ∃ run, run ≠ [] ∧ s = run ++ r ∧
    ∀ r', Follows run r r' → token (run ++ r') = some (t, r') := by
  have whole := h
  unfold token at h
  split at h
  · next scanned lettered =>
    obtain ⟨opening, form, q, scan, after, nonempty, rfl, quote, reads, always⟩ :=
      letteredToken_cases lettered
    rw [always, Option.some.injEq] at lettered
    subst lettered
    obtain ⟨body, inner, rfl⟩ := of_quotedToken h
    obtain ⟨run, rfl, again⟩ := reads.runs quote inner
    refine ⟨opening ++ run, by simp [nonempty], by simp, fun r' follows => ?_⟩
    unfold token
    rw [List.append_assoc, always, again opening r' follows]
    rfl
  next lettered =>
  split at h
  · cases h
  · next after =>
    cases h
    obtain ⟨run, cut, again⟩ := afterLine_runs after
    refine ⟨'-' :: '-' :: run, nofun, congrArg (_ :: _ :: ·) cut, fun r' follows => ?_⟩
    have read := again r' follows.ends
    unfold token
    rw [List.cons_append, letteredToken_eq_none (by decide)]
    simp only [List.cons_append, read]
  · next after =>
    obtain ⟨rest, inner, same⟩ := Option.map_eq_some_iff.mp h
    cases same
    obtain ⟨run, rfl, again⟩ := afterComment_runs inner
    refine ⟨'/' :: '*' :: run, nofun, rfl, fun r' follows => ?_⟩
    unfold token
    rw [List.cons_append, letteredToken_eq_none (by decide)]
    simp only [List.cons_append, again, Option.map_some]
  · next after =>
    obtain ⟨body, inner, rfl⟩ := of_quotedToken h
    obtain ⟨run, rfl, again⟩ := quotedBody_reads.runs (by simp) inner
    refine ⟨'\'' :: run, nofun, rfl, fun r' follows => ?_⟩
    unfold token
    rw [List.cons_append, letteredToken_eq_none (by decide)]
    simp only [again ['\''] r' follows]
    rfl
  · next after =>
    obtain ⟨⟨name, rest⟩, inner, same⟩ := Option.map_eq_some_iff.mp h
    cases same
    obtain ⟨run, rfl, again⟩ := quotedBody_reads.runs (by simp) inner
    refine ⟨'"' :: run, nofun, rfl, fun r' follows => ?_⟩
    unfold token
    rw [List.cons_append, letteredToken_eq_none (by decide)]
    simp only [again ['"'] r' follows]
    rfl
  · next after =>
    obtain ⟨run, rfl, again⟩ := dollarToken_runs h
    refine ⟨'$' :: run, nofun, rfl, fun r' follows => ?_⟩
    unfold token
    rw [List.cons_append, letteredToken_eq_none (by decide)]
    exact again r' follows.like
  · next c after line block single double dollar =>
    obtain ⟨noQuote, noLine, noBlock⟩ := plain_start line block single double dollar
    exact plainToken_runs lettered noQuote noLine noBlock whole

/-! ### Lexemes -/

theorem lexes_of_lexemesWithin {n : Nat} (h : lexemesWithin n s = some ls) :
    Lexes s ls := by
  induction n generalizing s ls with
  | zero =>
      cases s with
      | nil =>
          cases h
          exact .nil
      | cons c s => cases h
  | succ n ih =>
      cases s with
      | nil =>
          cases h
          exact .nil
      | cons c s =>
          simp only [lexemesWithin] at h
          split at h
          · cases h
          next t rest scanned =>
          obtain ⟨more, inner, rfl⟩ := Option.map_eq_some_iff.mp h
          obtain ⟨run, nonempty, cut, -⟩ := token_runs scanned
          have source : (c :: s).take ((c :: s).length - rest.length) = run := by
            rw [cut, List.length_append, Nat.add_sub_cancel, List.take_left]
          rw [source]
          rw [cut] at scanned ⊢
          exact .cons nonempty scanned (ih inner)

/-- The lexemes of a text are all of it. -/
theorem lexes_of_lexChars (h : lexChars s = some ls) : Lexes s ls :=
  lexes_of_lexemesWithin h

theorem lexChars_iff : lexChars s = some ls ↔ Lexes s ls :=
  ⟨lexes_of_lexChars, lexChars_of_lexes⟩

theorem lexes_cons (h : Lexes s (l :: ls)) :
    ∃ rest, s = l.source ++ rest ∧ l.source ≠ [] ∧ token (l.source ++ rest) = some (l.token, rest) ∧
      Lexes rest ls := by
  cases h with
  | cons nonempty scanned more => exact ⟨_, rfl, nonempty, scanned, more⟩

theorem lexes_nil (h : Lexes s []) : s = [] := by
  cases h
  rfl

theorem lexes_step (h : Lexes (run ++ r) ls) (hn : run ≠ [])
    (scanned : token (run ++ r) = some (t, r)) : ∃ more, ls = ⟨t, run⟩ :: more ∧ Lexes r more := by
  cases ls with
  | nil => exact absurd (List.append_eq_nil_iff.mp (lexes_nil h)).1 hn
  | cons l more =>
      obtain ⟨after, cut, -, read, lexes⟩ := lexes_cons h
      rw [← cut, scanned] at read
      cases read
      obtain rfl := List.append_cancel_right cut
      exact ⟨more, rfl, lexes⟩

/-- What comes first in a list of lexemes is what comes first in the text. -/
theorem lexes_append (h : Lexes s (ls ++ ms)) :
    ∃ rest, s = ls.flatMap Lexeme.source ++ rest ∧ Lexes rest ms := by
  induction ls generalizing s with
  | nil => exact ⟨s, rfl, h⟩
  | cons l ls ih =>
      obtain ⟨after, rfl, -, -, more⟩ := lexes_cons h
      obtain ⟨rest, rfl, last⟩ := ih more
      exact ⟨rest, by simp, last⟩

theorem lexes_mem (h : Lexes s ls) (hl : l ∈ ls) :
    ∃ rest, token (l.source ++ rest) = some (l.token, rest) := by
  obtain ⟨before, after, rfl⟩ := List.append_of_mem hl
  obtain ⟨rest, -, more⟩ := lexes_append h
  obtain ⟨rest, -, -, scanned, -⟩ := lexes_cons more
  exact ⟨rest, scanned⟩

theorem token_again (h : token (run ++ r) = some (t, r)) (hr : Follows run r r') :
    token (run ++ r') = some (t, r') := by
  obtain ⟨own, -, cut, again⟩ := token_runs h
  obtain rfl := List.append_cancel_right cut
  exact again r' hr

theorem exponent_ne_nil {mark : Char} {sign digits rest : List Char}
    (h : IsExponent mark sign digits) : exponent (mark :: (sign ++ (digits ++ rest))) ≠ [] := by
  obtain ⟨more, after, rfl, stops, places, -⟩ := takeWhile_split Char.isDigit rest
  have longer : IsExponent mark sign (digits ++ more) :=
    ⟨h.isMark, h.isSign, fun c hc => (List.mem_append.mp hc).elim (h.areDigits c) (places c),
      by simp [h.nonempty]⟩
  rw [← List.append_assoc digits, exponent_eq longer stops]
  nofun

/-- No exponent begins in a text only because a quote follows. -/
theorem exponent_common (hy : ∀ c ∈ y.head?, c = '\'')
    (h : exponent (s ++ x) = []) : exponent (s ++ y) = [] := by
  obtain none | ⟨mark, sign, digits, rest, spelled, -, same⟩ := exponent_cases (s ++ y)
  · exact none
  obtain ⟨d, digits, rfl⟩ := List.exists_cons_of_ne_nil spelled.nonempty
  have first : IsExponent mark sign [d] :=
    ⟨spelled.isMark, spelled.isSign, by simpa using spelled.areDigits d (by simp), nofun⟩
  have noQuote : '\'' ∉ mark :: (sign ++ [d]) := by
    obtain ⟨marked, signed, digit, -⟩ := first
    simp only [List.mem_cons, List.not_mem_nil, or_false] at signed digit
    simp only [List.mem_cons, List.mem_append, List.not_mem_nil, or_false]
    rintro (rfl | mem | rfl)
    · cases marked
    · obtain rfl | rfl | rfl := signed <;> simp at mem
    · exact absurd (digit _ rfl) (by decide)
  -- so the exponent begins in what the two texts have in common
  have inside : ∃ more, s = mark :: (sign ++ [d]) ++ more := by
    have cut : s ++ y = (mark :: (sign ++ [d])) ++ (digits ++ rest) := by simp [same]
    obtain ⟨extra, longer, after⟩ | ⟨more, shorter, -⟩ := List.append_eq_append_iff.mp cut
    · cases extra with
      | nil => exact ⟨[], by simp [longer]⟩
      | cons e extra =>
          obtain rfl := hy e (by simp [after])
          exact absurd (by simp [longer]) noQuote
    · exact ⟨more, shorter⟩
  obtain ⟨more, rfl⟩ := inside
  have none : exponent (mark :: (sign ++ ([d] ++ (more ++ x)))) = [] := by simpa using h
  exact absurd none (exponent_ne_nil first)

/-- A lexeme that is read before what comes first in a text is read there too where a quote follows
which does not belong to it, or the text ends. -/
theorem Follows.common (hy : ∀ c ∈ y.head?, c = '\'') (hx : x = [] → y = [])
    (quote : takesQuote run = true → s = [] → y = [])
    (ampersand : run ∈ [['u'], ['U']] → s = ['&'] → y = []) : Follows run (s ++ x) (s ++ y) where
  like := by
    cases s with
    | nil => exact fun c hc => .inl (hy c hc)
    | cons c s => exact fun d hd => .inr hd
  ends none := by
    obtain ⟨rfl, rfl⟩ := List.append_eq_nil_iff.mp none
    exact hx rfl
  power := exponent_common hy
  quote takes first := by
    cases s with
    | nil =>
        rw [quote takes rfl] at first
        cases first
    | cons c s => exact first
  ampersand unicode := by
    match s with
    | [] =>
        rintro ⟨more, start⟩
        exact absurd (hy '&' (by rw [← List.nil_append y, ← start]; rfl)) (by decide)
    | [c] =>
        rintro ⟨more, start⟩
        obtain ⟨rfl, rest⟩ := List.cons.inj start
        rw [ampersand unicode rfl] at rest
        cases rest
    | c :: d :: s => simp

/-- The lexemes that a text starts with are those of what they are read from. -/
theorem lexes_left (h : Lexes s (ls ++ ms)) : Lexes (ls.flatMap Lexeme.source) ls := by
  induction ls generalizing s with
  | nil => exact .nil
  | cons l ls ih =>
      obtain ⟨rest, rfl, nonempty, scanned, more⟩ := lexes_cons h
      obtain ⟨last, rfl, -⟩ := lexes_append more
      have follows : Follows l.source (ls.flatMap Lexeme.source ++ last)
          (ls.flatMap Lexeme.source ++ []) :=
        .common (by simp) (fun _ => rfl) (fun _ _ => rfl) (fun _ _ => rfl)
      have first := token_again scanned follows
      rw [List.append_nil] at first
      exact .cons nonempty first (ih more)

end ReportSql.Sql
