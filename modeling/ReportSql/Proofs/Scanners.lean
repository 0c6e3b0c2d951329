import ReportSql.Proofs.Lexemes

/-!
What each scanner reads, and how far it looks at the text after that. A scanner that has read some
characters reads the same from them before another text, if that goes on with the same character
or with a quote which does not belong to what was read.
-/
namespace ReportSql.Sql

open Lexer
open Text (isBlank)

variable {s r r' run tail body : List Char} {c d q : Char} {t : Token} {sym : Symbol}

/-! ### Texts that go on alike -/

/-- Whether a text goes on like another one, or with a quote. -/
def GoesOnLike (r r' : List Char) : Prop := ∀ c ∈ r'.head?, c = '\'' ∨ c ∈ r.head?

theorem GoesOnLike.refl (r : List Char) : GoesOnLike r r := fun _ hc => .inr hc

theorem GoesOnLike.prepend (h : GoesOnLike r r') (run : List Char) :
    GoesOnLike (run ++ r) (run ++ r') := by
  cases run with
  | nil => exact h
  | cons c run => exact fun d hd => .inr hd

theorem GoesOnLike.head?_ne (h : GoesOnLike r r') (hd : d ≠ '\'') (hr : r.head? ≠ some d) :
    r'.head? ≠ some d := by
  intro same
  cases h d same with
  | inl quote => exact hd quote
  | inr own => exact hr own

theorem ne_of_head?_ne (h : s.head? ≠ some c) : ∀ x, s = c :: x → False := by
  rintro x rfl
  exact h rfl

theorem head?_ne_of_ne (h : ∀ x, s = c :: x → False) : s.head? ≠ some c := by
  cases s with
  | nil => simp
  | cons d s =>
      rintro ⟨⟩
      exact h s rfl

theorem GoesOnLike.ne (h : GoesOnLike r r') (hd : d ≠ '\'') (hr : ∀ x, r = d :: x → False) :
    ∀ x, r' = d :: x → False :=
  ne_of_head?_ne (h.head?_ne hd (head?_ne_of_ne hr))

/-- A text that goes on like one which does not start with two characters does not either. -/
theorem GoesOnLike.not_prefix (h : GoesOnLike r r') (hd : d ≠ '\'') (hn : run ≠ [])
    (hr : ¬ [c, d] <+: run ++ r) : ¬ [c, d] <+: run ++ r' := by
  match run, hn with
  | e :: f :: run, _ => simpa using hr
  | [e], _ =>
      rintro ⟨more, start⟩
      obtain ⟨rfl, rest⟩ := List.cons.inj start
      obtain rfl : d :: more = r' := rest
      have first := (h d rfl).resolve_left hd
      obtain ⟨after, rfl⟩ := List.head?_eq_some_iff.mp first
      exact hr ⟨after, rfl⟩

theorem GoesOnLike.takeWhile {p : Char → Bool} (h : GoesOnLike r r') (hp : p '\'' = false)
    (hr : r.takeWhile p = []) : r'.takeWhile p = [] := by
  cases r' with
  | nil => rfl
  | cons c r' =>
      refine List.takeWhile_cons_of_neg ?_
      cases h c rfl with
      | inl quote => simp [quote, hp]
      | inr own =>
          cases r with
          | nil => cases own
          | cons d r =>
              cases own
              intro hc
              simp [hc] at hr

/-- The elements of a kind that a list starts with are cut off again where none follow. -/
theorem takeWhile_split {α : Type} (p : α → Bool) (s : List α) :
    ∃ run rest, s = run ++ rest ∧ rest.takeWhile p = [] ∧ (∀ a ∈ run, p a = true) ∧
      ∀ r', r'.takeWhile p = [] → (run ++ r').takeWhile p = run ∧ (run ++ r').dropWhile p = r' := by
  have stops : (s.dropWhile p).takeWhile p = [] := by
    have first := List.head?_dropWhile_not p s
    cases rest : s.dropWhile p with
    | nil => rfl
    | cons c rest =>
        rw [rest] at first
        exact List.takeWhile_cons_of_neg (by simpa using first)
  have all : ∀ c ∈ s.takeWhile p, p c = true := List.all_eq_true.mp List.all_takeWhile
  refine ⟨s.takeWhile p, s.dropWhile p, List.takeWhile_append_dropWhile.symm, stops, all, ?_⟩
  intro r' hr
  have kept : (s.takeWhile p ++ r').takeWhile p = s.takeWhile p ++ r'.takeWhile p :=
    List.takeWhile_append_of_pos all
  rw [hr, List.append_nil] at kept
  have joined := List.takeWhile_append_dropWhile (p := p) (l := s.takeWhile p ++ r')
  rw [kept] at joined
  exact ⟨kept, List.append_cancel_left joined⟩

/-! ### Quoted text -/

theorem of_map_body {α β : Type} {f : α → β} {x : Option (α × List Char)} {b : β}
    (h : (x.map fun (a, r) => (f a, r)) = some (b, r)) : ∃ a, x = some (a, r) ∧ f a = b := by
  obtain ⟨⟨a, after⟩, rfl, same⟩ := Option.map_eq_some_iff.mp h
  cases same
  exact ⟨a, rfl, rfl⟩

/-- A body ends with its quote, and no further quote follows that. -/
theorem quotedBody_runs (h : quotedBody q s = some (body, r)) :
    ∃ run, s = run ++ q :: r ∧ r.head? ≠ some q ∧
      ∀ r', r'.head? ≠ some q → quotedBody q (run ++ q :: r') = some (body, r') := by
  have closing : ∀ r' : List Char, r'.head? ≠ some q → quotedBody q (q :: r') = some ([], r') := by
    intro r' hr
    cases r' with
    | nil => simp [quotedBody]
    | cons d r' =>
        have other : d ≠ q := by simpa using hr
        simp [quotedBody, other]
  fun_induction quotedBody q s generalizing body with
  | case1 => cases h
  | case2 c hc d rest hd ih =>
      obtain ⟨own, inner, rfl⟩ := of_map_body h
      obtain ⟨run, rfl, last, again⟩ := ih inner
      exact ⟨c :: d :: run, rfl, last, fun r' hr => by simp [quotedBody, hc, hd, again r' hr]⟩
  | case3 c hc d rest hd =>
      cases h
      obtain rfl : c = q := by simpa using hc
      exact ⟨[], rfl, by simpa using hd, closing⟩
  | case4 c hc =>
      cases h
      obtain rfl : c = q := by simpa using hc
      exact ⟨[], rfl, by simp, closing⟩
  | case5 c rest hc ih =>
      obtain ⟨own, inner, rfl⟩ := of_map_body h
      obtain ⟨run, rfl, last, again⟩ := ih inner
      refine ⟨c :: run, rfl, last, fun r' hr => ?_⟩
      rw [List.cons_append, quotedBody.eq_def]
      simp only [hc, Bool.false_eq_true, if_false, again r' hr, Option.map_some]

theorem backslashBody_runs (h : backslashBody s = some (body, r)) :
    ∃ run, s = run ++ '\'' :: r ∧ r.head? ≠ some '\'' ∧
      ∀ r', r'.head? ≠ some '\'' → backslashBody (run ++ '\'' :: r') = some (body, r') := by
  fun_induction backslashBody s generalizing body with
  | case1 => cases h
  | case2 c rest ih =>
      obtain ⟨own, inner, rfl⟩ := of_map_body h
      obtain ⟨run, rfl, last, again⟩ := ih inner
      exact ⟨'\\' :: c :: run, rfl, last, fun r' hr => by simp [backslashBody, again r' hr]⟩
  | case3 rest ih =>
      obtain ⟨own, inner, rfl⟩ := of_map_body h
      obtain ⟨run, rfl, last, again⟩ := ih inner
      exact ⟨'\'' :: '\'' :: run, rfl, last, fun r' hr => by simp [backslashBody, again r' hr]⟩
  | case4 rest single =>
      cases h
      refine ⟨[], rfl, head?_ne_of_ne single, fun r' hr => ?_⟩
      rw [List.nil_append, backslashBody]
      exact ne_of_head?_ne hr
  | case5 c rest noEscape _ noQuote ih =>
      obtain ⟨own, inner, rfl⟩ := of_map_body h
      obtain ⟨run, rfl, last, again⟩ := ih inner
      refine ⟨c :: run, rfl, last, fun r' hr => ?_⟩
      rw [List.cons_append, backslashBody, again r' hr]
      · rfl
      · intro d x hc hx
        -- something is left after the character, so that it is no backslash
        cases run with
        | nil => exact noEscape '\'' r hc rfl
        | cons e run => exact noEscape e _ hc rfl
      · exact fun x hc _ => noQuote hc
      · exact noQuote

theorem of_map_char {α : Type} {x : Option α} {a : α} {after : List Char}
    (h : x.map (·, after) = some (a, r)) : x = some a ∧ after = r := by
  obtain ⟨b, rfl, same⟩ := Option.map_eq_some_iff.mp h
  cases same
  exact ⟨rfl, rfl⟩

/-- Up to a number of digits are read again where the text goes on with the same character. -/
theorem digits_again {p : Char → Bool} {k : Nat} {digits : List Char}
    (h : (s.take k).takeWhile p = digits) : ∃ rest, s = digits ++ rest ∧
      ∀ r', r'.head? = rest.head? → ((digits ++ r').take k).takeWhile p = digits := by
  have part : digits <+: s := h ▸ (List.takeWhile_prefix p).trans (List.take_prefix k s)
  have all : ∀ c ∈ digits, p c = true := h ▸ List.all_eq_true.mp List.all_takeWhile
  have short : digits.length ≤ k := by
    rw [← h]
    exact Nat.le_trans (List.takeWhile_prefix p).length_le (List.length_take_le _ _)
  obtain ⟨rest, rfl⟩ := part
  have cut (r' : List Char) : ((digits ++ r').take k).takeWhile p =
      digits ++ (r'.take (k - digits.length)).takeWhile p := by
    rw [List.take_append, List.take_of_length_le short, List.takeWhile_append_of_pos all]
  refine ⟨rest, rfl, fun r' same => ?_⟩
  rw [cut, List.append_right_eq_self] at h ⊢
  generalize k - digits.length = m at h ⊢
  cases m with
  | zero => rfl
  | succ m =>
      cases r' with
      | nil => rfl
      | cons c r' =>
          cases rest with
          | nil => cases same
          | cons d rest =>
              cases same
              by_cases hc : p c = true
              · simp [hc] at h
              · simp [hc]

/-- Where fewer digits stand than an escape can have, it looks at the character after them. -/
theorem escapeSequence_runs (h : escapeSequence s = some (c, r)) :
    ∃ run, s = run ++ r ∧ ∀ r', r'.head? = r.head? → escapeSequence (run ++ r') = some (c, r') := by
  unfold escapeSequence at h
  split at h
  case h_1 => cases h
  case h_7 after | h_8 after =>
    split at h
    · cases h
    next long =>
    obtain ⟨own, rfl⟩ := of_map_char h
    have enough := List.length_take_of_le (Nat.le_of_not_lt long)
    refine ⟨_ :: after.take _, congrArg _ (List.take_append_drop _ after).symm, fun r' _ => ?_⟩
    rw [List.cons_append, escapeSequence, if_neg (by simp [enough]),
      List.take_left' enough, List.drop_left' enough, own]
    rfl
  case h_9 after =>
    obtain ⟨rest, cut, again⟩ := digits_again (Eq.refl ((after.take 2).takeWhile isHexDigit))
    revert h cut again
    generalize (after.take 2).takeWhile isHexDigit = digits
    intro h cut again
    subst cut
    cases digits with
    | nil =>
        cases h
        refine ⟨['x'], rfl, fun r' hr => ?_⟩
        have still := again r' hr
        rw [List.nil_append] at still
        rw [List.singleton_append, escapeSequence, still]
    | cons d digits =>
        obtain ⟨own, left⟩ := of_map_char h
        rw [List.drop_left] at left
        subst left
        refine ⟨'x' :: d :: digits, rfl, fun r' hr => ?_⟩
        rw [List.cons_append, escapeSequence, again r' hr]
        simp only [own, List.drop_left, Option.map_some]
  case h_10 d after _ _ _ _ _ _ _ _ =>
    dsimp only at h
    split at h
    · next octal =>
      obtain ⟨own, left⟩ := of_map_char h
      obtain ⟨rest, cut, again⟩ := digits_again (Eq.refl
        ((after.take 2).takeWhile fun d => decide ('0' ≤ d) && decide (d ≤ '7')))
      revert own left cut again
      generalize (after.take 2).takeWhile (fun d => decide ('0' ≤ d) && decide (d ≤ '7')) = digits
      intro own left cut again
      subst cut
      rw [List.drop_left] at left
      subst left
      refine ⟨d :: digits, rfl, fun r' hr => ?_⟩
      rw [List.cons_append, escapeSequence]
      · simp only [octal, if_true, again r' hr, own, List.drop_left, Option.map_some]
      all_goals assumption
    · next plain =>
      cases h
      refine ⟨[c], rfl, fun r' _ => ?_⟩
      rw [List.singleton_append, escapeSequence]
      · simp only [plain, Bool.false_eq_true, if_false]
      all_goals assumption
  all_goals
    cases h
    exact ⟨[_], rfl, fun r' _ => rfl⟩

/-- The bound on a body counts its characters. -/
theorem escapedBody_runs {n : Nat} (h : escapedBody n s = some (body, r)) :
    ∃ run, s = run ++ '\'' :: r ∧ r.head? ≠ some '\'' ∧ ∀ n r', run.length < n →
      r'.head? ≠ some '\'' → escapedBody n (run ++ '\'' :: r') = some (body, r') := by
  fun_induction escapedBody n s generalizing body with
  | case1 | case2 | case5 | case7 => cases h
  | case3 n rest ih =>
      obtain ⟨own, inner, rfl⟩ := of_map_body h
      obtain ⟨run, rfl, last, again⟩ := ih inner
      refine ⟨'\'' :: '\'' :: run, rfl, last, fun n r' hn hr => ?_⟩
      obtain ⟨m, rfl⟩ := Nat.exists_eq_add_one_of_ne_zero (Nat.ne_zero_of_lt hn)
      simp only [List.length_cons] at hn
      simp [escapedBody, again m r' (by omega) hr]
  | case4 n rest single =>
      cases h
      refine ⟨[], rfl, head?_ne_of_ne single, fun n r' hn hr => ?_⟩
      obtain ⟨m, rfl⟩ := Nat.exists_eq_add_one_of_ne_zero (Nat.ne_zero_of_lt hn)
      rw [List.nil_append, escapedBody]
      exact ne_of_head?_ne hr
  | case6 n rest c after escape visible ih =>
      obtain ⟨own, inner, rfl⟩ := of_map_body h
      obtain ⟨run, rfl, last, again⟩ := ih inner
      obtain ⟨code, rfl, escapes⟩ := escapeSequence_runs escape
      refine ⟨'\\' :: code ++ run, by simp, last, fun n r' hn hr => ?_⟩
      obtain ⟨m, rfl⟩ := Nat.exists_eq_add_one_of_ne_zero (Nat.ne_zero_of_lt hn)
      have goesOn : (run ++ '\'' :: r').head? = (run ++ '\'' :: r).head? := by
        cases run <;> rfl
      simp only [List.length_append, List.length_cons] at hn
      rw [List.append_assoc, List.cons_append, escapedBody, escapes _ goesOn]
      simp only [visible, Bool.false_eq_true, if_false, again m r' (by omega) hr, Option.map_some]
  | case8 n c rest noQuotes noQuote noEscape ih =>
      obtain ⟨own, inner, rfl⟩ := of_map_body h
      obtain ⟨run, rfl, last, again⟩ := ih inner
      refine ⟨c :: run, rfl, last, fun n r' hn hr => ?_⟩
      obtain ⟨m, rfl⟩ := Nat.exists_eq_add_one_of_ne_zero (Nat.ne_zero_of_lt hn)
      simp only [List.length_cons] at hn
      rw [List.cons_append, escapedBody, again m r' (by omega) hr]
      · rfl
      · exact fun x hc _ => noQuote hc
      · exact noQuote
      · exact noEscape

/-- The digits of a code point, with a plus sign in front of six of them. -/
theorem unicodeBody_escape {escape digits more : List Char} {width : Nat}
    (shape : (match escape with | '+' :: r => (6, r) | r => (4, r)) = (width, digits ++ more))
    (long : digits.length = width) (hex : digits.all isHexDigit = true)
    (code : charOf? (digitsValue 16 digits) = some c) :
    ∃ written, escape = written ++ more ∧ ∀ n more', unicodeBody (n + 1)
      ('\\' :: (written ++ more')) = (unicodeBody n more').map fun (body, r) => (c :: body, r) := by
  split at shape
  · next r =>
    obtain ⟨rfl, rfl⟩ := Prod.mk.inj shape
    refine ⟨'+' :: digits, rfl, fun n more' => ?_⟩
    simp only [List.cons_append, unicodeBody, List.take_left' long, List.drop_left' long, long, hex,
      code, Nat.lt_irrefl, decide_false, Bool.not_true, Bool.or_false, Bool.false_eq_true, if_false]
  · next noSign =>
    obtain ⟨rfl, rfl⟩ := Prod.mk.inj shape
    obtain ⟨d, digits, rfl⟩ := List.exists_cons_of_length_eq_add_one long
    have first : isHexDigit d = true := List.all_eq_true.mp hex d List.mem_cons_self
    have other : ∀ e, isHexDigit e = false →
        ∀ more' x, (d :: digits) ++ more' = e :: x → False := by
      intro e he more' x same
      rw [(List.cons.inj same).1, he] at first
      cases first
    refine ⟨d :: digits, rfl, fun n more' => ?_⟩
    rw [unicodeBody]
    · simp only [List.take_left' long, List.drop_left' long, long, hex, code, Nat.lt_irrefl,
        decide_false, Bool.not_true, Bool.or_false, Bool.false_eq_true, if_false]
    · exact other '\\' (by decide) more'
    · exact other '+' (by decide) more'

theorem unicodeBody_runs {n : Nat} (h : unicodeBody n s = some (body, r)) :
    ∃ run, s = run ++ '\'' :: r ∧ r.head? ≠ some '\'' ∧ ∀ n r', run.length < n →
      r'.head? ≠ some '\'' → unicodeBody n (run ++ '\'' :: r') = some (body, r') := by
  fun_induction unicodeBody n s generalizing body with
  | case1 | case2 | case6 | case8 => cases h
  | case3 n rest ih | case5 n rest ih =>
      obtain ⟨own, inner, rfl⟩ := of_map_body h
      obtain ⟨run, rfl, last, again⟩ := ih inner
      refine ⟨_ :: _ :: run, rfl, last, fun n r' hn hr => ?_⟩
      obtain ⟨m, rfl⟩ := Nat.exists_eq_add_one_of_ne_zero (Nat.ne_zero_of_lt hn)
      simp only [List.length_cons] at hn
      simp [unicodeBody, again m r' (by omega) hr]
  | case4 n rest single =>
      cases h
      refine ⟨[], rfl, head?_ne_of_ne single, fun n r' hn hr => ?_⟩
      obtain ⟨m, rfl⟩ := Nat.exists_eq_add_one_of_ne_zero (Nat.ne_zero_of_lt hn)
      rw [List.nil_append, unicodeBody]
      exact ne_of_head?_ne hr
  | case7 n escape noBackslash width rest shape digits valid c code =>
      rename_i ih
      obtain ⟨own, inner, rfl⟩ := of_map_body h
      obtain ⟨run, left, last, again⟩ := ih inner
      simp only [Bool.or_eq_true, decide_eq_true_eq, Bool.not_eq_true', not_or, Nat.not_lt,
        Bool.not_eq_false] at valid
      obtain ⟨long, hex⟩ := valid
      have enough : (rest.take width).length = width :=
        Nat.le_antisymm (List.length_take_le _ _) long
      have cut : rest = rest.take width ++ (run ++ '\'' :: r) := by
        rw [← left, List.take_append_drop]
      rw [cut] at shape
      obtain ⟨written, rfl, spelled⟩ := unicodeBody_escape shape enough hex code
      refine ⟨'\\' :: (written ++ run), by simp, last, fun n r' hn hr => ?_⟩
      obtain ⟨m, rfl⟩ := Nat.exists_eq_add_one_of_ne_zero (Nat.ne_zero_of_lt hn)
      simp only [List.length_cons, List.length_append] at hn
      rw [List.cons_append, List.append_assoc, spelled, again m r' (by omega) hr]
      rfl
  | case9 n c rest noQuotes noQuote noBackslashes noBackslash ih =>
      obtain ⟨own, inner, rfl⟩ := of_map_body h
      obtain ⟨run, rfl, last, again⟩ := ih inner
      refine ⟨c :: run, rfl, last, fun n r' hn hr => ?_⟩
      obtain ⟨m, rfl⟩ := Nat.exists_eq_add_one_of_ne_zero (Nat.ne_zero_of_lt hn)
      simp only [List.length_cons] at hn
      rw [List.cons_append, unicodeBody, again m r' (by omega) hr]
      · rfl
      · exact fun x hc _ => noQuote hc
      · exact noQuote
      · exact fun x hc _ => noBackslash hc
      · exact noBackslash
theorem dollarBody_runs {afterDollar : Bool} (h : dollarBody afterDollar s = some (body, r)) :
    ∃ run, s = run ++ r ∧ ∀ r', dollarBody afterDollar (run ++ r') = some (body, r') := by
  fun_induction dollarBody afterDollar s generalizing body with
  | case1 => cases h
  | case2 c rest hc =>
      cases h
      exact ⟨[c], rfl, fun r' => by simp [dollarBody, hc]⟩
  | case3 c rest hc ih =>
      obtain ⟨⟨own, after⟩, inner, same⟩ := Option.map_eq_some_iff.mp h
      cases same
      obtain ⟨run, rfl, again⟩ := ih inner
      exact ⟨c :: run, rfl, fun r' => by simp [dollarBody, hc, again]⟩
  | case4 afterDollar c rest before hc ih =>
      obtain ⟨run, rfl, again⟩ := ih h
      exact ⟨c :: run, rfl, fun r' => by simp [dollarBody, before, hc, again]⟩
  | case5 afterDollar c rest before hc ih =>
      obtain ⟨own, inner, rfl⟩ := of_map_body h
      obtain ⟨run, rfl, again⟩ := ih inner
      exact ⟨c :: run, rfl, fun r' => by simp [dollarBody, before, hc, again]⟩

theorem taggedBody_runs {tag : List Char} {pending : Option (List Char)}
    (h : taggedBody tag pending s = some (body, r)) :
    ∃ run, s = run ++ r ∧ ∀ r', taggedBody tag pending (run ++ r') = some (body, r') := by
  fun_induction taggedBody tag pending s generalizing body with
  | case1 => cases h
  | case3 c rest hc =>
      cases h
      exact ⟨[c], rfl, fun r' => by simp [taggedBody, hc]⟩
  | case2 c rest go | case5 c rest go t more =>
      rename_i ih
      obtain ⟨own, inner, rfl⟩ := of_map_body h
      obtain ⟨run, rfl, again⟩ := ih _ inner
      refine ⟨c :: run, rfl, fun r' => ?_⟩
      simp only [taggedBody, List.cons_append, again, Option.map_some]
  | case4 c rest go hc =>
      rename_i ih
      obtain ⟨own, inner, rfl⟩ := of_map_body h
      obtain ⟨run, rfl, again⟩ := ih _ inner
      refine ⟨c :: run, rfl, fun r' => ?_⟩
      simp only [taggedBody, List.cons_append, hc, Bool.false_eq_true, if_false, again,
        Option.map_some]

/-! ### Comments -/

theorem afterComment_runs {depth : Nat} {last : Char} (h : afterComment depth last s = some r) :
    ∃ run, s = run ++ r ∧ ∀ r', afterComment depth last (run ++ r') = some r' := by
  fun_induction afterComment depth last s with
  | case1 => cases h
  | case2 depth last c rest opens ih =>
      obtain ⟨run, rfl, again⟩ := ih h
      refine ⟨c :: run, rfl, fun r' => ?_⟩
      rw [List.cons_append, afterComment, if_pos opens, again]
  | case3 depth last c rest opens closes shallow =>
      cases h
      refine ⟨[c], rfl, fun r' => ?_⟩
      rw [List.singleton_append, afterComment, if_neg opens, if_pos closes, if_pos shallow]
  | case4 depth last c rest opens closes deep ih =>
      obtain ⟨run, rfl, again⟩ := ih h
      refine ⟨c :: run, rfl, fun r' => ?_⟩
      rw [List.cons_append, afterComment, if_neg opens, if_pos closes, if_neg deep, again]
  | case5 depth last c rest opens closes ih =>
      obtain ⟨run, rfl, again⟩ := ih h
      refine ⟨c :: run, rfl, fun r' => ?_⟩
      rw [List.cons_append, afterComment, if_neg opens, if_neg closes, again]

/-- A comment that ends with its line, or where the text ends. -/
theorem afterLine_runs (s : List Char) :
    ∃ run, s = run ++ afterLine s ∧
      ∀ r', (afterLine s = [] → r' = []) → afterLine (run ++ r') = r' := by
  induction s with
  | nil => exact ⟨[], rfl, fun r' ends => by rw [ends rfl]; rfl⟩
  | cons c s ih =>
      by_cases hc : c = '\n'
      · subst hc
        exact ⟨['\n'], rfl, fun r' _ => rfl⟩
      · have skips : ∀ x, afterLine (c :: x) = afterLine x := fun x => by
          simp [afterLine, hc]
        obtain ⟨run, cut, again⟩ := ih
        rw [skips]
        exact ⟨c :: run, congrArg _ cut, fun r' ends => (skips _).trans (again r' ends)⟩

/-! ### Dollar signs, words and numbers -/

theorem dollarToken_runs (h : dollarToken s = some (t, r)) :
    ∃ run, s = run ++ r ∧ ∀ r', GoesOnLike r r' → dollarToken (run ++ r') = some (t, r') := by
  unfold dollarToken at h
  dsimp only at h
  split at h
  · next after =>
    obtain ⟨⟨body, rest⟩, inner, same⟩ := Option.map_eq_some_iff.mp h
    cases same
    obtain ⟨run, rfl, again⟩ := dollarBody_runs inner
    refine ⟨'$' :: run, rfl, fun r' _ => ?_⟩
    rw [List.cons_append, dollarToken, again]
    rfl
  · next noDollar =>
    obtain ⟨tag, rest, rfl, stops, parts, cut⟩ :=
      takeWhile_split (fun c => Text.isAlphanumeric c || c == '_') s
    rw [(cut rest stops).1, (cut rest stops).2] at h
    split at h
    · next after =>
      obtain ⟨⟨body, rest⟩, inner, same⟩ := Option.map_eq_some_iff.mp h
      cases same
      obtain ⟨run, rfl, again⟩ := taggedBody_runs inner
      refine ⟨tag ++ '$' :: run, by simp, fun r' like => ?_⟩
      obtain ⟨taken, dropped⟩ := cut ('$' :: (run ++ r')) rfl
      rw [List.append_assoc, List.cons_append, dollarToken, taken, dropped]
      · simp only [again, Option.map_some]
      · exact ((like.prepend ('$' :: run)).prepend tag).ne (by decide) noDollar
    · next noTag =>
      cases h
      refine ⟨tag, rfl, fun r' like => ?_⟩
      obtain ⟨taken, dropped⟩ := cut r' (like.takeWhile (by decide) stops)
      rw [dollarToken, taken, dropped]
      · split
        · next more => exact (like.ne (by decide) noTag more rfl).elim
        · rfl
      · exact (like.prepend tag).ne (by decide) noDollar

theorem wordToken_runs (h : wordToken s = (t, r)) :
    ∃ run, s = run ++ r ∧ (∀ c ∈ run, isNamePart c = true) ∧ r.takeWhile isNamePart = [] ∧
      ∀ r', GoesOnLike r r' → wordToken (run ++ r') = (t, r') := by
  obtain ⟨name, rest, rfl, stops, parts, cut⟩ := takeWhile_split isNamePart s
  unfold wordToken at h
  simp only [(cut rest stops).1, List.drop_left, Prod.mk.injEq] at h
  obtain ⟨rfl, rfl⟩ := h
  refine ⟨name, rfl, parts, stops, fun r' like => ?_⟩
  simp only [wordToken, (cut r' (like.takeWhile (by decide) stops)).1, List.drop_left]

/-- The parts of an exponent. -/
structure IsExponent (mark : Char) (sign digits : List Char) : Prop where
  isMark : (mark == 'e' || mark == 'E') = true
  isSign : sign ∈ [[], ['+'], ['-']]
  areDigits : ∀ c ∈ digits, c.isDigit = true
  nonempty : digits ≠ []

theorem exponent_eq {mark : Char} {sign digits rest : List Char} (h : IsExponent mark sign digits)
    (stops : rest.takeWhile Char.isDigit = []) :
    exponent (mark :: (sign ++ (digits ++ rest))) = mark :: (sign ++ digits) := by
  obtain ⟨marked, signed, places, nonempty⟩ := h
  have all : (digits ++ rest).takeWhile Char.isDigit = digits := by
    rw [List.takeWhile_append_of_pos places, stops, List.append_nil]
  have taken : ((sign ++ (digits ++ rest)).take 1).takeWhile (fun c => c == '+' || c == '-') =
      sign := by
    simp only [List.mem_cons, List.not_mem_nil, or_false] at signed
    obtain rfl | rfl | rfl := signed
    · obtain ⟨d, digits, rfl⟩ := List.exists_cons_of_ne_nil nonempty
      have noSign : (d == '+' || d == '-') = false := by
        have plain := (digit_only (places d List.mem_cons_self)).2.2.2.2
        simp only [Bool.or_eq_false_iff, beq_eq_false_iff_ne]
        constructor <;> rintro rfl <;> cases plain
      simp [noSign]
    · rfl
    · rfl
  obtain ⟨d, digits, rfl⟩ := List.exists_cons_of_ne_nil nonempty
  rw [exponent, if_pos marked]
  simp only [taken, List.drop_left, all]
  rfl

theorem sign_split (s : List Char) : ∃ sign rest, s = sign ++ rest ∧ sign ∈ [[], ['+'], ['-']] ∧
    (s.take 1).takeWhile (fun c => c == '+' || c == '-') = sign := by
  cases s with
  | nil => exact ⟨[], [], rfl, by simp, rfl⟩
  | cons c s =>
      by_cases plus : c = '+'
      · subst plus
        exact ⟨['+'], s, rfl, by simp, rfl⟩
      by_cases minus : c = '-'
      · subst minus
        exact ⟨['-'], s, rfl, by simp, rfl⟩
      exact ⟨[], c :: s, rfl, by simp, by simp [plus, minus]⟩

theorem exponent_cases (s : List Char) : exponent s = [] ∨ ∃ mark sign digits rest,
    IsExponent mark sign digits ∧ rest.takeWhile Char.isDigit = [] ∧
      s = mark :: (sign ++ (digits ++ rest)) := by
  cases s with
  | nil => exact .inl rfl
  | cons mark s =>
      by_cases marked : (mark == 'e' || mark == 'E') = true
      case neg => exact .inl (by rw [exponent, if_neg marked])
      obtain ⟨sign, after, cut, signs, taken⟩ := sign_split s
      obtain ⟨digits, rest, rfl, stops, all, again⟩ := takeWhile_split Char.isDigit after
      cases digits with
      | nil =>
          refine .inl ?_
          rw [exponent, if_pos marked]
          simp only [taken]
          rw [cut, List.drop_left, (again rest stops).1]
      | cons d digits =>
          exact .inr ⟨mark, sign, d :: digits, rest,
            ⟨marked, signs, all, List.cons_ne_nil d digits⟩, stops, congrArg _ cut⟩

theorem exponent_runs (s : List Char) : ∃ rest, s = exponent s ++ rest ∧ ∀ rest',
    GoesOnLike rest rest' → (exponent rest = [] → exponent rest' = []) →
      exponent (exponent s ++ rest') = exponent s := by
  obtain none | ⟨mark, sign, digits, rest, spelled, stops, rfl⟩ := exponent_cases s
  · rw [none]
    exact ⟨s, rfl, fun rest' _ ends => ends none⟩
  · rw [exponent_eq spelled stops]
    refine ⟨rest, by simp, fun rest' like _ => ?_⟩
    rw [List.cons_append, List.append_assoc]
    exact exponent_eq spelled (like.takeWhile (by decide) stops)

/-- A number from the parts of its mantissa on, if it is no hexadecimal one. -/
theorem numberToken_mantissa {whole point places rest : List Char}
    (hw : ∀ c ∈ whole, c.isDigit = true) (hp : ∀ c ∈ places, c.isDigit = true)
    (wholeEnds : (point ++ (places ++ rest)).takeWhile Char.isDigit = [])
    (notHex : whole = ['0'] → (point ++ (places ++ rest)).head? ≠ some 'x')
    (pointTaken : ((point ++ (places ++ rest)).take 1).takeWhile (· == '.') = point)
    (placesEnd : rest.takeWhile Char.isDigit = []) :
    numberToken (whole ++ (point ++ (places ++ rest))) =
      if (whole ++ point ++ places == ['.']) = true then (.symbol .period, rest)
      else
        let text := String.ofList (whole ++ point ++ places ++ exponent rest)
        match rest.drop (exponent rest).length with
        | 'L' :: after => (.number text true, after)
        | _ => (.number text false, rest.drop (exponent rest).length) := by
  have wholeTaken : (whole ++ (point ++ (places ++ rest))).takeWhile Char.isDigit = whole := by
    rw [List.takeWhile_append_of_pos hw, wholeEnds, List.append_nil]
  have placesTaken : (places ++ rest).takeWhile Char.isDigit = places := by
    rw [List.takeWhile_append_of_pos hp, placesEnd, List.append_nil]
  unfold numberToken
  simp only [wholeTaken, List.drop_left]
  split
  · next isHex after zero hex =>
    exact absurd (congrArg List.head? hex) (notHex (by simpa using zero))
  · simp only [pointTaken, List.drop_left, placesTaken] <;> rfl

theorem point_split (s : List Char) : ∃ point rest, s = point ++ rest ∧ ∀ rest',
    GoesOnLike rest rest' → ((point ++ rest').take 1).takeWhile (· == '.') = point := by
  by_cases point : s.head? = some '.'
  · obtain ⟨rest, rfl⟩ := List.head?_eq_some_iff.mp point
    exact ⟨['.'], rest, rfl, fun _ _ => rfl⟩
  · refine ⟨[], s, rfl, fun rest' like => ?_⟩
    have none := like.head?_ne (by decide) point
    cases rest' with
    | nil => rfl
    | cons c rest' =>
        have other : c ≠ '.' := by simpa using none
        simp [other]

theorem numberToken_runs (h : numberToken s = (t, r)) : ∃ run, s = run ++ r ∧
    (run = [] → ∀ c ∈ s.head?, (c.isDigit || c == '.') = false) ∧ ∀ r', GoesOnLike r r' →
      (exponent r = [] → exponent r' = []) → numberToken (run ++ r') = (t, r') := by
  obtain ⟨whole, tail, rfl, wholeEnds, digits, -⟩ := takeWhile_split Char.isDigit s
  by_cases hex : whole = ['0'] ∧ tail.head? = some 'x'
  case pos =>
    obtain ⟨rfl, x⟩ := hex
    obtain ⟨after, rfl⟩ := List.head?_eq_some_iff.mp x
    obtain ⟨digits, rest, rfl, ends, -, again⟩ := takeWhile_split isHexDigit after
    have spelled : ∀ rest', rest'.takeWhile isHexDigit = [] →
        numberToken (['0'] ++ 'x' :: (digits ++ rest')) =
          (.text .hex (String.ofList digits), rest') := fun rest' ends' => by
      simp [numberToken, (again rest' ends').1]
    rw [spelled rest ends] at h
    cases h
    exact ⟨'0' :: 'x' :: digits, rfl, nofun,
      fun r' like _ => spelled r' (like.takeWhile (by decide) ends)⟩
  obtain ⟨point, tail, rfl, pointTaken⟩ := point_split tail
  obtain ⟨places, rest, rfl, placesEnd, decimals, -⟩ := takeWhile_split Char.isDigit tail
  have spelled := fun rest' (like : GoesOnLike rest rest') =>
    numberToken_mantissa digits decimals
      (((like.prepend places).prepend point).takeWhile (by decide) wholeEnds)
      (fun zero => ((like.prepend places).prepend point).head?_ne (by decide)
        fun x => hex ⟨zero, x⟩)
      (pointTaken _ (like.prepend places)) (like.takeWhile (by decide) placesEnd)
  have starts : ∀ more, whole ++ (point ++ more) = [] →
      ∀ c ∈ (whole ++ (point ++ (places ++ rest))).head?, (c.isDigit || c == '.') = false := by
    intro more nothing c first
    simp only [List.append_eq_nil_iff] at nothing
    obtain ⟨rfl, rfl, -⟩ := nothing
    obtain ⟨after, start⟩ := List.head?_eq_some_iff.mp first
    have noPoint := pointTaken _ (.refl _)
    simp only [List.nil_append] at start noPoint wholeEnds
    rw [start] at noPoint wholeEnds
    have noDigit : c.isDigit = false := by
      cases digit : c.isDigit with
      | false => rfl
      | true => simp [digit] at wholeEnds
    have noPeriod : (c == '.') = false := by
      cases period : c == '.' with
      | false => rfl
      | true => simp [period] at noPoint
    rw [noDigit, noPeriod]
    rfl
  by_cases period : (whole ++ point ++ places == ['.']) = true
  case pos =>
    rw [spelled rest (.refl rest), if_pos period] at h
    cases h
    refine ⟨whole ++ (point ++ places), by simp, starts places, fun r' like _ => ?_⟩
    rw [List.append_assoc, List.append_assoc, spelled r' like, if_pos period]
  obtain ⟨after, cut, again⟩ := exponent_runs rest
  revert cut again
  generalize exponent rest = power
  rintro rfl again
  have number := fun after' (like : GoesOnLike after after')
      (ends : exponent after = [] → exponent after' = []) => by
    have read := spelled (power ++ after') (like.prepend power)
    rw [if_neg period, again after' like ends] at read
    simp only [List.drop_left] at read
    exact read
  rw [number after (.refl after) id] at h
  split at h
  · next after =>
    cases h
    refine ⟨whole ++ (point ++ (places ++ (power ++ ['L']))), by simp, starts _,
      fun r' like ends => ?_⟩
    have read := number ('L' :: r') (like.prepend ['L']) (fun _ => rfl)
    simpa using read
  · next short =>
    cases h
    refine ⟨whole ++ (point ++ (places ++ power)), by simp, starts _, fun r' like ends => ?_⟩
    have read := number r' like ends
    rw [List.append_assoc, List.append_assoc, List.append_assoc, read]
    split
    · next more => exact (like.ne (by decide) short more rfl).elim
    · rfl

/-! ### Operators -/

/-- Whether no operator goes on in a text. -/
def EndsOperator (r : List Char) : Prop := r.takeWhile isOperatorChar = []

theorem EndsOperator.head?_ne (h : EndsOperator r) (hd : isOperatorChar d = true) :
    r.head? ≠ some d := by
  intro first
  obtain ⟨rest, rfl⟩ := List.head?_eq_some_iff.mp first
  rw [EndsOperator, List.takeWhile_cons_of_pos hd] at h
  cases h

/-- An operator is longer by what is left of the operator characters. -/
theorem extended_eq (ht : ∀ c ∈ tail, isOperatorChar c = true) (hr : EndsOperator r) :
    extended sym (tail ++ r) = some
      (if tail = [] then .symbol sym else .operator (sym.text ++ String.ofList tail), r) := by
  have taken : (tail ++ r).takeWhile isOperatorChar = tail := by
    rw [List.takeWhile_append_of_pos ht, hr, List.append_nil]
  unfold extended
  rw [taken]
  cases tail with
  | nil => rfl
  | cons c tail => simp

theorem extended_cases (h : extended sym s = some (t, r)) :
    ∃ tail, s = tail ++ r ∧ (∀ c ∈ tail, isOperatorChar c = true) ∧ EndsOperator r ∧
      t = if tail = [] then .symbol sym else .operator (sym.text ++ String.ofList tail) := by
  obtain ⟨tail, rest, rfl, ends, all, -⟩ := takeWhile_split isOperatorChar s
  rw [extended_eq all ends] at h
  cases h
  exact ⟨tail, rfl, all, ends, rfl⟩

theorem operator_ne {tail' : List Char} (ht : tail' <+: tail) (hr : EndsOperator r')
    (hd : isOperatorChar d = true) (h : ∀ x, tail ++ r = d :: x → False) :
    ∀ x, tail' ++ r' = d :: x → False := by
  intro x hx
  obtain ⟨more, rfl⟩ := ht
  cases tail' with
  | nil => exact hr.head?_ne hd (by rw [List.nil_append] at hx; rw [hx]; rfl)
  | cons c tail' =>
      cases hx
      exact h _ rfl

/-- What an operator is read from: a spelling and the operator characters after it. -/
structure IsOperator (run tail r : List Char) (sym : Symbol) : Prop where
  ofRun : ∀ c ∈ run, isOperatorChar c = true
  ofTail : ∀ c ∈ tail, isOperatorChar c = true
  ends : EndsOperator r
  again : ∀ tail' r', tail' <+: tail → EndsOperator r' →
    symbolToken (run ++ (tail' ++ r')) = extended sym (tail' ++ r')

/-- No blank goes on with an operator, so that a percent sign is an operator like the others. -/
theorem symbolToken_percent (r : List Char) : symbolToken ('%' :: r) = extended .percent r := by
  cases r with
  | nil => rfl
  | cons c r =>
      rw [symbolToken]
      by_cases blank : isBlank c = true
      case neg => exact if_neg blank
      have other : isOperatorChar c = false := by
        cases operator : isOperatorChar c with
        | false => rfl
        | true =>
            have all : ∀ c ∈ "+-*/<>=~!@#%^&|\x60?".toList, isBlank c = false :=
              List.all_iff_forall_prop.mp (by decide)
            rw [all c (List.contains_iff_mem.mp operator)] at blank
            cases blank
      rw [if_pos blank, extended, List.takeWhile_cons_of_neg (by simp [other])]
      rfl

/-- Punctuation and operators are spellings, some of which are longer by operator characters. -/
theorem symbolToken_cases (h : symbolToken s = some (t, r)) : ∃ run, run ≠ [] ∧
    ((s = run ++ r ∧ ∃ sym, t = .symbol sym ∧ ∀ r', GoesOnLike r r' → (r = [] → r' = []) →
      symbolToken (run ++ r') = some (.symbol sym, r')) ∨
    ∃ sym tail, s = run ++ (tail ++ r) ∧ IsOperator run tail r sym ∧
      t = if tail = [] then .symbol sym else .operator (sym.text ++ String.ofList tail)) := by
  unfold symbolToken at h
  split at h
  case h_16 after =>
    have percent := (symbolToken_percent after).symm.trans h
    obtain ⟨tail, rfl, all, ends, rfl⟩ := extended_cases percent
    exact ⟨['%'], List.cons_ne_nil _ _, .inr ⟨.percent, tail, rfl,
      ⟨List.all_eq_true.mp rfl, all, ends, fun tail' r' _ _ => symbolToken_percent _⟩, rfl⟩⟩
  case h_61 after noPipe noAnd =>
    cases h
    refine ⟨'?' :: after.take 1, List.cons_ne_nil _ _,
      .inl ⟨congrArg _ (List.take_append_drop 1 after).symm, _, rfl, fun r' _ ends => ?_⟩⟩
    cases after with
    | nil =>
        rw [ends rfl]
        rfl
    | cons c after =>
        change symbolToken ('?' :: c :: r') = _
        rw [symbolToken]
        · rfl
        · exact fun x h => noPipe after (congrArg (· :: after) (List.cons.inj h).1)
        · exact fun x h => noAnd after (congrArg (· :: after) (List.cons.inj h).1)
  case h_62 => cases h
  all_goals
    first
    | (cases h
       refine ⟨[_], List.cons_ne_nil _ _, .inl ⟨rfl, _, rfl, fun r' like _ => ?_⟩⟩
       rw [List.singleton_append, symbolToken]
       all_goals first | rfl | exact fun x hx => like.ne (by decide) (by assumption) _ hx)
    | (cases h
       refine ⟨[_, _], List.cons_ne_nil _ _, .inl ⟨rfl, _, rfl, fun r' like _ => ?_⟩⟩
       rw [List.cons_append, List.singleton_append, symbolToken]
       all_goals first | rfl | exact fun x hx => like.ne (by decide) (by assumption) _ hx)
    | (cases h
       refine ⟨[_, _, _], List.cons_ne_nil _ _, .inl ⟨rfl, _, rfl, fun r' like _ => ?_⟩⟩
       rw [List.cons_append, List.cons_append, List.singleton_append, symbolToken]
       all_goals first | rfl | exact fun x hx => like.ne (by decide) (by assumption) _ hx)
    | (cases h
       exact ⟨[_, _, _, _], List.cons_ne_nil _ _, .inl ⟨rfl, _, rfl, fun r' _ _ => rfl⟩⟩)
    | (obtain ⟨tail, rfl, all, ends, rfl⟩ := extended_cases h
       refine ⟨[_], List.cons_ne_nil _ _, .inr ⟨_, tail, rfl,
         ⟨List.all_eq_true.mp rfl, all, ends, fun tail' r' part ends => ?_⟩, rfl⟩⟩
       rw [List.singleton_append, symbolToken]
       all_goals exact fun x hx => operator_ne part ends (by decide) (by assumption) _ hx)
    | (obtain ⟨tail, rfl, all, ends, rfl⟩ := extended_cases h
       refine ⟨[_, _], List.cons_ne_nil _ _, .inr ⟨_, tail, rfl,
         ⟨List.all_eq_true.mp rfl, all, ends, fun tail' r' part ends => ?_⟩, rfl⟩⟩
       rw [List.cons_append, List.singleton_append, symbolToken]
       all_goals exact fun x hx => operator_ne part ends (by decide) (by assumption) _ hx)
    | (obtain ⟨tail, rfl, all, ends, rfl⟩ := extended_cases h
       exact ⟨[_, _, _], List.cons_ne_nil _ _, .inr ⟨_, tail, rfl,
         ⟨List.all_eq_true.mp rfl, all, ends, fun tail' r' part ends => by rfl⟩, rfl⟩⟩)

theorem symbolToken_runs (h : symbolToken s = some (t, r)) : ∃ run, run ≠ [] ∧ s = run ++ r ∧
    ∀ r', GoesOnLike r r' → (r = [] → r' = []) → symbolToken (run ++ r') = some (t, r') := by
  obtain ⟨run, nonempty, ⟨rfl, sym, rfl, again⟩ | ⟨sym, tail, rfl, operator, rfl⟩⟩ :=
    symbolToken_cases h
  · exact ⟨run, nonempty, rfl, again⟩
  · refine ⟨run ++ tail, by simp [nonempty], by simp, fun r' like _ => ?_⟩
    have ends : EndsOperator r' := like.takeWhile (by decide) operator.ends
    rw [List.append_assoc, operator.again tail r' (List.prefix_refl tail) ends,
      extended_eq operator.ofTail ends]

theorem extended_ne_none (sym : Symbol) (s : List Char) : extended sym s ≠ none := by
  unfold extended
  split <;> nofun

/-- Whether punctuation or an operator stands here is seen by the first character. -/
theorem symbolToken_none {c : Char} (h : symbolToken (c :: s) = none) (s' : List Char) :
    symbolToken (c :: s') = none := by
  unfold symbolToken at h
  split at h
  case h_16 => exact absurd ((symbolToken_percent _).symm.trans h) (extended_ne_none _ _)
  case h_62 =>
    rw [symbolToken]
    all_goals
      rintro r ⟨⟩
      exact (‹∀ r, _ :: s = _ :: r → False›) _ rfl
  all_goals first | cases h | exact absurd h (extended_ne_none _ _)

end ReportSql.Sql
