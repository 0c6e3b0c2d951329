import Mathlib.Data.List.Forall2
import ReportSql.Proofs.AsciiCase
import ReportSql.Sql.Parser

/-!
What the parsers of tokens give: the steps of a parser one by one, the keywords and symbols that a
text goes on with, repeated steps, and items between commas.
-/
namespace ReportSql.Sql.Parse

open Text (isCapital)

variable {α β : Type} {ts rest : List Token} {k w : String} {s : Symbol}

/-! ### Steps -/

@[simp] theorem run_pure (a : α) (ts : List Token) : (pure a : Parse α) ts = .ok (a, ts) := rfl

@[simp] theorem run_bind (p : Parse α) (f : α → Parse β) (ts : List Token) :
    (p >>= f) ts = match p ts with
      | .ok (a, rest) => f a rest
      | .error e => .error e := by
  show Except.bind _ _ = _
  cases p ts <;> rfl

@[simp] theorem run_map (f : α → β) (p : Parse α) (ts : List Token) :
    (f <$> p) ts = match p ts with
      | .ok (a, rest) => .ok (f a, rest)
      | .error e => .error e := by
  rw [map_eq_pure_bind, run_bind]
  cases p ts <;> rfl

@[simp] theorem run_ite (c : Prop) [Decidable c] (p q : Parse α) (ts : List Token) :
    (if c then p else q) ts = if c then p ts else q ts := by
  split <;> rfl

@[simp] theorem run_fail (ts : List Token) : (fail : Parse α) ts = .error .unexpected := rfl

@[simp] theorem run_throw (e : Failure) (ts : List Token) : (throw e : Parse α) ts = .error e :=
  rfl

@[simp] theorem run_get (ts : List Token) : (get : Parse (List Token)) ts = .ok (ts, ts) := rfl

@[simp] theorem run_set (new ts : List Token) : (set new : Parse PUnit) ts = .ok ((), new) := rfl

@[simp] theorem run_ahead (ts : List Token) : ahead ts = .ok (ts, ts) := rfl

@[simp] theorem run_peek (ts : List Token) : peek? ts = .ok (ts.head?, ts) := rfl

@[simp] theorem run_skip (ts : List Token) : skip ts = .ok ((), ts.tail) := rfl

@[simp] theorem run_next (t : Token) (ts : List Token) : next (t :: ts) = .ok (t, ts) := rfl

theorem run_optional {p : Parse α} {a : α} (h : p ts = .ok (a, rest)) :
    optional p ts = .ok (some a, rest) := by
  simp [optional, h]

theorem run_optional_none {p : Parse α} (h : p ts = .error .unexpected) :
    optional p ts = .ok (none, ts) := by
  simp [optional, h]

/-! ### Keywords and symbols -/

@[simp] theorem accept_nil : accept s [] = .ok (false, []) := rfl

@[simp] theorem accept_cons (t : Token) :
    accept s (t :: ts) = if t = .symbol s then .ok (true, ts) else .ok (false, t :: ts) := rfl

@[simp] theorem expect_self : expect s (.symbol s :: ts) = .ok ((), ts) := by
  simp [expect]

theorem keyword?_capital (h : isCapital w = true) : (Token.word w false).keyword? = some w := by
  rw [Token.keyword?, Text.upper_of_capital h]

theorem isKeyword_of_ne {t : Token} (h : t.keyword? ≠ some k) : t.isKeyword k = false := by
  rw [Token.isKeyword, beq_eq_false_iff_ne]
  exact h

@[simp] theorem keywords_nil {ks : List String} :
    keywords (k :: ks) [] = .ok (false, []) := rfl

theorem keywords_of_ne {ks : List String} {t : Token} (h : t.keyword? ≠ some k) :
    keywords (k :: ks) (t :: ts) = .ok (false, t :: ts) := by
  simp [keywords, afterKeywords?, isKeyword_of_ne h]

@[simp] theorem keywords_symbol {ks : List String} :
    keywords (k :: ks) (.symbol s :: ts) = .ok (false, .symbol s :: ts) := keywords_of_ne nofun

@[simp] theorem keywords_text {ks : List String} {form : TextForm} {v : String} :
    keywords (k :: ks) (.text form v :: ts) = .ok (false, .text form v :: ts) :=
  keywords_of_ne nofun

@[simp] theorem keywords_number {ks : List String} {v : String} {long : Bool} :
    keywords (k :: ks) (.number v long :: ts) = .ok (false, .number v long :: ts) :=
  keywords_of_ne nofun

@[simp] theorem keywords_quoted {ks : List String} :
    keywords (k :: ks) (.word w true :: ts) = .ok (false, .word w true :: ts) :=
  keywords_of_ne nofun

theorem keywords_other {ks : List String} (hw : isCapital w = true) (hk : w ≠ k) :
    keywords (k :: ks) (.word w false :: ts) = .ok (false, .word w false :: ts) := by
  refine keywords_of_ne ?_
  rw [keyword?_capital hw]
  exact fun h => hk (Option.some.inj h)

theorem keyword_self (hk : isCapital k = true) :
    keywords [k] (.word k false :: ts) = .ok (true, ts) := by
  simp [keywords, afterKeywords?, Token.isKeyword, keyword?_capital hk]

theorem keywords_pair {l : String} (hk : isCapital k = true) (hl : isCapital l = true) :
    keywords [k, l] (.word k false :: .word l false :: ts) = .ok (true, ts) := by
  simp [keywords, afterKeywords?, Token.isKeyword, keyword?_capital hk, keyword?_capital hl]

theorem keywords_second {l : String} (hk : isCapital k = true) (hw : isCapital w = true)
    (hl : w ≠ l) : keywords [k, l] (.word k false :: .word w false :: ts) =
      .ok (false, .word k false :: .word w false :: ts) := by
  simp [keywords, afterKeywords?, Token.isKeyword, keyword?_capital hk, keyword?_capital hw, hl]

theorem expectKeyword_self (hk : isCapital k = true) :
    expectKeyword k (.word k false :: ts) = .ok ((), ts) := by
  simp [expectKeyword, expectKeywords, keyword_self hk]

theorem oneOf_self {ks : List String} (hw : isCapital w = true) (hk : ks.contains w = true) :
    oneOf ks (.word w false :: ts) = .ok (some w, ts) := by
  unfold oneOf
  simp only [keyword?_capital hw, hk, if_true]

theorem oneOf_of_ne {ks : List String} {t : Token} (h : ∀ k ∈ ks, t.keyword? ≠ some k) :
    oneOf ks (t :: ts) = .ok (none, t :: ts) := by
  unfold oneOf
  cases found : t.keyword? with
  | none => simp only [found]
  | some k =>
      have : ks.contains k = false := by
        simpa using fun hk : k ∈ ks => h k hk found
      simp only [found, this, Bool.false_eq_true, if_false]

/-! ### What a text goes on with -/

/-- Whether a text is at its end, or goes on with one of some symbols or keywords. Opening
brackets stand nowhere in it. -/
structure Before (symbols : List Symbol) (words : List String) (ts : List Token) : Prop where
  head : ∀ t ∈ ts.head?, (∃ s ∈ symbols, t = .symbol s) ∨
    ∃ w ∈ words, isCapital w = true ∧ t = .word w false
  unbracketed : Token.symbol .leftBracket ∉ ts

variable {S S' : List Symbol} {W W' : List String}

theorem before_nil : Before S W [] := ⟨nofun, nofun⟩

theorem before_symbol (hs : s ∈ S) (hb : Token.symbol .leftBracket ∉ Token.symbol s :: ts) :
    Before S W (.symbol s :: ts) := by
  refine ⟨?_, hb⟩
  rintro _ ⟨⟩
  exact .inl ⟨s, hs, rfl⟩

theorem before_word (hw : w ∈ W) (hc : isCapital w = true)
    (hb : Token.symbol .leftBracket ∉ ts) : Before S W (.word w false :: ts) := by
  refine ⟨?_, by simpa using hb⟩
  rintro _ ⟨⟩
  exact .inr ⟨w, hw, hc, rfl⟩

theorem Before.mono (h : Before S W ts) (hS : S ⊆ S') (hW : W ⊆ W') : Before S' W' ts := by
  refine ⟨fun t ht => ?_, h.unbracketed⟩
  rcases h.head t ht with ⟨s, hs, rfl⟩ | ⟨w, hw, hc, rfl⟩
  · exact .inl ⟨s, hS hs, rfl⟩
  · exact .inr ⟨w, hW hw, hc, rfl⟩

theorem Before.cases (h : Before S W ts) :
    ts = [] ∨ (∃ s rest, s ∈ S ∧ ts = .symbol s :: rest) ∨
      ∃ w rest, w ∈ W ∧ isCapital w = true ∧ ts = .word w false :: rest := by
  cases ts with
  | nil => exact .inl rfl
  | cons t rest =>
      rcases h.head t rfl with ⟨s, hs, rfl⟩ | ⟨w, hw, hc, rfl⟩
      · exact .inr (.inl ⟨s, rest, hs, rfl⟩)
      · exact .inr (.inr ⟨w, rest, hw, hc, rfl⟩)

theorem Before.keywords {ks : List String} (h : Before S W ts) (hk : k ∉ W) :
    keywords (k :: ks) ts = .ok (false, ts) := by
  rcases h.cases with rfl | ⟨s, rest, -, rfl⟩ | ⟨w, rest, hw, hc, rfl⟩
  · rfl
  · exact keywords_symbol
  · exact keywords_other hc fun same => hk (same ▸ hw)

theorem Before.keyword (h : Before S W ts) (hk : k ∉ W) : keyword k ts = .ok (false, ts) :=
  h.keywords hk

theorem Before.oneOf {ks : List String} (h : Before S W ts) (hk : ∀ k ∈ ks, k ∉ W) :
    oneOf ks ts = .ok (none, ts) := by
  rcases h.cases with rfl | ⟨s, rest, -, rfl⟩ | ⟨w, rest, hw, hc, rfl⟩
  · rfl
  · exact oneOf_of_ne fun k _ => nofun
  · refine oneOf_of_ne fun k hks => ?_
    rw [keyword?_capital hc]
    rintro ⟨⟩
    exact hk _ hks hw

theorem Before.accept (h : Before S W ts) (hs : s ∉ S) : accept s ts = .ok (false, ts) := by
  rcases h.cases with rfl | ⟨s', rest, hs', rfl⟩ | ⟨w, rest, -, -, rfl⟩
  · rfl
  · rw [accept_cons, if_neg]
    rintro ⟨⟩
    exact hs hs'
  · rfl

theorem Before.expect (h : Before S W ts) (hs : s ∉ S) : expect s ts = .error .unexpected := by
  simp [Parse.expect, h.accept hs]

theorem Before.atSymbol (h : Before S W ts) (hs : s ∉ S) : atSymbol s ts = .ok (false, ts) := by
  rcases h.cases with rfl | ⟨s', rest, hs', rfl⟩ | ⟨w, rest, -, -, rfl⟩
  · rfl
  · have : s' ≠ s := by
      rintro rfl
      exact hs hs'
    simp [Parse.atSymbol, this]
  · simp [Parse.atSymbol]

theorem Before.atKeyword (h : Before S W ts) (hk : k ∉ W) : atKeyword k ts = .ok (false, ts) := by
  rcases h.cases with rfl | ⟨s, rest, -, rfl⟩ | ⟨w, rest, hw, hc, rfl⟩
  · rfl
  · simp [Parse.atKeyword, Token.isKeyword, Token.keyword?]
  · have : w ≠ k := fun same => hk (same ▸ hw)
    simp [Parse.atKeyword, Token.isKeyword, keyword?_capital hc, this]

theorem Before.optionalInParens {p : Parse α} (h : Before S W ts) (hs : .leftParen ∉ S) :
    optionalInParens p ts = .ok (none, ts) := by
  simp [Parse.optionalInParens, h.accept hs]

/-! ### Repeated steps -/

/-- How a repeated step goes on from a value, and where it stops. -/
inductive Steps (step : α → Parse (Option α)) : α → List Token → α → List Token → Prop where
  | stop {a ts rest} : step a ts = .ok (none, rest) → Steps step a ts a rest
  | more {a b c ts mid rest} : step a ts = .ok (some b, mid) → mid.length < ts.length →
      Steps step b mid c rest → Steps step a ts c rest

theorem iterate_of_steps {step : α → Parse (Option α)} {a b : α} (h : Steps step a ts b rest) :
    iterate step a ts = .ok (b, rest) := by
  have within : ∀ n, ts.length < n → iterateWithin step n a ts = .ok (b, rest) := by
    induction h with
    | stop ends =>
        intro n hn
        cases n with
        | zero => omega
        | succ n => simp [iterateWithin, ends]
    | more goesOn shorter _ ih =>
        intro n hn
        cases n with
        | zero => omega
        | succ n =>
            simp only [iterateWithin, run_bind, goesOn]
            exact ih n (by omega)
  exact within _ (Nat.lt_succ_self _)

/-- The results that a repeated parser gives until it gives none. -/
inductive Gives (p : Parse (Option α)) : List Token → List α → List Token → Prop where
  | stop {ts rest : List Token} : p ts = .ok (none, rest) → Gives p ts [] rest
  | more {a : α} {as : List α} {ts mid rest : List Token} : p ts = .ok (some a, mid) →
      mid.length < ts.length → Gives p mid as rest → Gives p ts (a :: as) rest

theorem many_of_gives {p : Parse (Option α)} {as : List α} (h : Gives p ts as rest) :
    many p ts = .ok (as, rest) := by
  unfold many
  rw [run_bind, @iterate_of_steps _ _ rest _ _ (as.reverse ++ [])]
  · simp
  · generalize ([] : List α) = found
    induction h generalizing found with
    | stop ends => exact .stop (by simp [ends])
    | more gives shorter _ ih =>
        refine .more (by simp only [run_bind, gives]; rfl) shorter ?_
        simpa using ih (_ :: found)

/-! ### Names -/

/-- The name that a word spells. -/
def wordIdent (w : String) (quoted : Bool) : Ident := ⟨w, if quoted then .double else .bare⟩

variable {p q : Bool}

@[simp] theorem run_ident : ident (.word w p :: ts) = .ok (wordIdent w p, ts) := rfl

theorem path_single (h : accept .period ts = .ok (false, ts)) :
    path (.word w p :: ts) = .ok ([wordIdent w p], ts) := by
  unfold path
  rw [run_bind, run_ident]
  simp only
  rw [run_bind, @many_of_gives _ _ ts _ []]
  · rfl
  · exact .stop (by simp only [run_bind, h, run_ite, Bool.false_eq_true, if_false, run_pure])

theorem path_pair (h : accept .period ts = .ok (false, ts)) :
    path (.word w p :: .symbol .period :: .word k q :: ts) =
      .ok ([wordIdent w p, wordIdent k q], ts) := by
  unfold path
  rw [run_bind, run_ident]
  simp only
  rw [run_bind, @many_of_gives _ _ ts _ [wordIdent k q]]
  · rfl
  · refine @Gives.more _ _ _ _ _ ts _ ?_ ?_ (.stop ?_)
    · simp only [run_bind, accept_cons, if_true, run_ite, run_ident, run_pure]
    · simp only [List.length_cons]
      omega
    · simp only [run_bind, h, run_ite, Bool.false_eq_true, if_false, run_pure]

/-! ### Items between commas -/

/-- Groups of tokens with a comma between each two. -/
def commaJoined : List (List Token) → List Token
  | [] => []
  | [ts] => ts
  | ts :: rest => ts ++ .symbol .comma :: commaJoined rest

theorem unbracketed_commaJoined {groups : List (List Token)}
    (h : ∀ ts ∈ groups, Token.symbol .leftBracket ∉ ts) :
    Token.symbol .leftBracket ∉ commaJoined groups := by
  induction groups with
  | nil => exact List.not_mem_nil
  | cons ts groups ih =>
      have own := h ts (by simp)
      cases groups with
      | nil => exact own
      | cons us groups =>
          have more := ih fun x hx => h x (List.mem_cons_of_mem _ hx)
          simp [commaJoined, own, more]

/-- No group has an opening bracket if none of those that stand for something has. -/
theorem unbracketed_groups {R : List Token → α → Prop} {groups : List (List Token)} {as : List α}
    (h : List.Forall₂ R groups as) (each : ∀ {ts a}, R ts a → Token.symbol .leftBracket ∉ ts) :
    ∀ ts ∈ groups, Token.symbol .leftBracket ∉ ts := by
  induction h with
  | nil => exact fun _ hts => absurd hts List.not_mem_nil
  | cons own _ ih => exact List.forall_mem_cons.mpr ⟨each own, ih⟩

/-- A parser reads some tokens wherever one of some symbols or keywords follows. -/
def ReadsBefore (S : List Symbol) (W : List String) (p : Parse α) (ts : List Token) (a : α) :
    Prop :=
  ∀ rest, Before S W rest → p (ts ++ rest) = .ok (a, rest)

theorem ReadsBefore.mono {p : Parse α} {a : α} (h : ReadsBefore S' W' p ts a) (hS : S ⊆ S')
    (hW : W ⊆ W') : ReadsBefore S W p ts a :=
  fun rest hr => h rest (hr.mono hS hW)

theorem commaSeparated_of_reads {p : Parse α} {groups : List (List Token)} {as : List α}
    (each : List.Forall₂ (ReadsBefore S W p) groups as) (nonempty : groups ≠ [])
    (hb : ∀ ts ∈ groups, Token.symbol .leftBracket ∉ ts) (hs : .comma ∈ S)
    (hr : Before S W rest) (ends : Parse.accept .comma rest = .ok (false, rest)) :
    commaSeparated p (commaJoined groups ++ rest) = .ok (as, rest) := by
  have within : ∀ n, (commaJoined groups ++ rest).length < n →
      commaSeparatedWithin p n (commaJoined groups ++ rest) = .ok (as, rest) := by
    induction each with
    | nil => exact absurd rfl nonempty
    | @cons ts a groups as own _ ih =>
        intro n hn
        cases n with
        | zero => omega
        | succ n =>
            cases groups with
            | nil =>
                cases as with
                | nil => simp [commaSeparatedWithin, commaJoined, own rest hr, ends]
                | cons _ _ => contradiction
            | cons us groups =>
                have hb' := fun x hx => hb x (List.mem_cons_of_mem _ hx)
                have goesOn : Before S W (.symbol .comma :: (commaJoined (us :: groups) ++ rest)) :=
                  before_symbol hs (by simp [unbracketed_commaJoined hb', hr.unbracketed])
                have more := ih (List.cons_ne_nil _ _) hb' n (by
                  simp only [commaJoined, List.length_append, List.length_cons] at hn ⊢
                  omega)
                simp only [commaJoined, List.append_assoc, List.cons_append]
                simp [commaSeparatedWithin, own _ goesOn, more]
  exact within _ (Nat.lt_succ_self _)

end ReportSql.Sql.Parse
