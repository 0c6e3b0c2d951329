import ReportSql.Proofs.ParserRuns
import ReportSql.Sql.Grammar.Expressions

/-!
Words that start no typed literal. A word may be read as the name of a type first, but a column or
a call in its place is no literal where no bracket makes an array of its name.
-/
namespace ReportSql.Sql.Grammar

open Parse
open Text (isCapital)

variable {α β : Type} {ts rest : List Token} {k w : String}

/-! ### Parsers that meet no bracket -/

/-- A parser reads texts without opening brackets into results with some property, and does not
nest. -/
def Yields (p : Parse α) (Q : α → Prop) : Prop :=
  ∀ ts, Token.symbol .leftBracket ∉ ts →
    match p ts with
    | .ok (a, rest) => Q a ∧ Token.symbol .leftBracket ∉ rest
    | .error e => e = .unexpected

variable {p : Parse α} {Q : α → Prop} {R : β → Prop}

theorem yields_pure {a : α} (h : Q a) : Yields (pure a : Parse α) Q := fun _ hb => ⟨h, hb⟩

theorem yields_fail : Yields (fail : Parse α) Q := fun _ _ => rfl

theorem Yields.bind {f : α → Parse β} (hp : Yields p Q) (hf : ∀ a, Q a → Yields (f a) R) :
    Yields (p >>= f) R := by
  intro ts hb
  have first := hp ts hb
  rw [run_bind]
  cases read : p ts with
  | error e =>
      rw [read] at first
      exact first
  | ok found =>
      rw [read] at first
      exact hf found.1 first.1 found.2 first.2

theorem Yields.mono {Q' : α → Prop} (hp : Yields p Q) (h : ∀ a, Q a → Q' a) : Yields p Q' := by
  intro ts hb
  have := hp ts hb
  cases read : p ts with
  | error e => rwa [read] at this
  | ok found =>
      rw [read] at this
      exact ⟨h _ this.1, this.2⟩

theorem yields_ite {c : Prop} [Decidable c] {q : Parse α} (hp : c → Yields p Q)
    (hq : ¬c → Yields q Q) : Yields (if c then p else q) Q := by
  split
  · exact hp ‹_›
  · exact hq ‹_›

theorem yields_next : Yields next (· ≠ .symbol .leftBracket) := by
  intro ts hb
  cases ts with
  | nil => rfl
  | cons t ts =>
      simp only [List.mem_cons, not_or] at hb
      exact ⟨Ne.symm hb.1, hb.2⟩

theorem yields_accept (s : Symbol) : Yields (accept s) fun b => b = true → s ≠ .leftBracket := by
  intro ts hb
  cases ts with
  | nil => exact ⟨nofun, hb⟩
  | cons t ts =>
      simp only [List.mem_cons, not_or] at hb
      by_cases same : t = .symbol s
      · rw [accept_cons, if_pos same]
        refine ⟨fun _ => ?_, hb.2⟩
        rintro rfl
        exact hb.1 same.symm
      · rw [accept_cons, if_neg same]
        exact ⟨nofun, by simpa using hb⟩

theorem yields_iterate {step : α → Parse (Option α)}
    (h : ∀ a, Q a → Yields (step a) fun b => ∀ x ∈ b, Q x) {a : α} (ha : Q a) :
    Yields (iterate step a) Q := by
  have within : ∀ n a, Q a → Yields (iterateWithin step n a) Q := by
    intro n
    induction n with
    | zero => exact fun _ _ => yields_fail
    | succ n ih =>
        intro a ha
        refine (h a ha).bind fun b hb => ?_
        cases b with
        | none => exact yields_pure ha
        | some b => exact ih b (hb b rfl)
  exact fun ts => within _ a ha ts

theorem yields_many {p : Parse (Option α)} (h : Yields p fun _ => True) :
    Yields (many p) fun _ => True := by
  refine (yields_iterate (Q := fun _ => True) (fun found _ => h.bind fun a _ => ?_) trivial).bind
    fun _ _ => yields_pure trivial
  cases a <;> exact yields_pure (by simp)

theorem yields_ident : Yields ident fun _ => True := by
  refine yields_next.bind fun t _ => ?_
  split <;> first | exact yields_pure trivial | exact yields_fail

theorem yields_path : Yields path fun _ => True := by
  refine yields_ident.bind fun _ _ => (yields_many ?_).bind fun _ _ => yields_pure trivial
  refine (yields_accept _).bind fun b _ => yields_ite (fun _ => ?_) fun _ => yields_pure trivial
  exact yields_ident.bind fun _ _ => yields_pure trivial

/-! ### Names of types -/

/-- The keywords that a type can start with, apart from ARRAY. -/
def typeWords : List String :=
  plainTypes.map Prod.fst ++ integerTypes ++ lengthTypes ++ scaleTypes ++
    ["DATE", "INTERVAL", "DOUBLE", "VARCHAR", "NVARCHAR", "CHARACTER", "CHAR", "BIT", "TIMESTAMP",
     "TIME", "TIMESTAMPTZ", "TIMETZ", "DATETIME64", "FIXEDSTRING", "ENUM", "ENUM8", "ENUM16",
     "SET"]

theorem keywordType_none (h : k ∉ typeWords) : keywordType k = pure none := by
  simp only [typeWords, List.mem_append, not_or] at h
  obtain ⟨⟨⟨⟨plain, integer⟩, length⟩, scale⟩, others⟩ := h
  have plain : plainTypes.lookup k = none := by
    rw [List.lookup_eq_none_iff]
    intro p hp
    rw [bne_iff_ne]
    rintro rfl
    exact plain (List.mem_map_of_mem hp)
  unfold keywordType
  simp only [plain, List.contains_eq_mem, integer, length, scale, decide_false,
    Bool.false_eq_true, if_false]
  split <;> first | rfl | exact absurd (by decide) others

theorem yields_modifiers : Yields modifiers fun _ => True := by
  have within : ∀ n, Yields (modifiersWithin n) fun _ => True := by
    intro n
    induction n with
    | zero => exact yields_fail
    | succ n ih =>
        refine yields_next.bind fun t _ => ?_
        split <;> first
          | exact ih
          | exact yields_pure trivial
          | exact ih.bind fun _ _ => yields_pure trivial
          | exact yields_fail
  exact fun ts => within _ ts

theorem yields_arrayBounds {type : DataType} :
    Yields (arrayBounds type) fun found => found.sort = type.sort := by
  refine yields_iterate (fun found same => ?_) rfl
  refine (yields_accept _).bind fun b hb => ?_
  cases b with
  | true => exact absurd rfl (hb rfl)
  | false => exact yields_pure (by simp)

/-- A custom type: a name with modifiers, or an array of such types. -/
def customType : Parse DataType := do
  let name ← path
  let modified ← accept .leftParen
  let list : Parse (List String) := if modified then modifiers else pure []
  let found ← list
  arrayBounds ⟨if found.isEmpty then pathText name
    else pathText name ++ "(" ++ commaText found ++ ")", .custom⟩

theorem yields_customType : Yields customType fun type => type.sort = .custom := by
  refine yields_path.bind fun name _ => (yields_accept _).bind fun modified _ => ?_
  have list : Yields (if modified then modifiers else pure []) fun _ => True :=
    yields_ite (fun _ => yields_modifiers) fun _ => yields_pure trivial
  exact list.bind fun found _ => yields_arrayBounds

/-- A word that is no built-in type names a custom one. -/
theorem dataType_of_none {quoted : Bool} (hk : (Token.word w quoted).keyword? ≠ some "ARRAY")
    (hn : keywordType ((Token.word w quoted).keyword?.getD "") ts = .ok (none, ts)) :
    dataType (.word w quoted :: ts) = customType (.word w quoted :: ts) := by
  simp only [dataType, customType, run_bind, run_ahead, dataTypeWithin, run_next,
    isKeyword_of_ne hk, hn, run_ite, run_pure, run_set, Bool.false_eq_true, if_false]
  cases path (.word w quoted :: ts) with
  | error e => rfl
  | ok found =>
      obtain ⟨name, after⟩ := found
      simp only
      cases accept .leftParen after with
      | error e => rfl
      | ok found =>
          obtain ⟨modified, inside⟩ := found
          cases modified with
          | false =>
              simp only [Bool.false_eq_true, if_false, List.isEmpty_nil, if_true]
              cases arrayBounds _ inside <;> rfl
          | true =>
              simp only [if_true]
              cases modifiers inside with
              | error e => rfl
              | ok found =>
                  simp only
                  cases arrayBounds _ found.2 <;> rfl

variable {lead : Parse Expr}

/-- The name of a custom type starts no literal. -/
theorem typedLiteral_of_none {quoted : Bool} (hk : (Token.word w quoted).keyword? ≠ some "ARRAY")
    (hn : keywordType ((Token.word w quoted).keyword?.getD "") ts = .ok (none, ts))
    (hb : Token.symbol .leftBracket ∉ ts) :
    typedLiteral lead (.word w quoted :: ts) = .error .unexpected := by
  have custom := yields_customType (.word w quoted :: ts) (by simpa using hb)
  simp only [typedLiteral, run_bind, dataType_of_none hk hn]
  cases read : customType (.word w quoted :: ts) with
  | error e =>
      rw [read] at custom
      simp only [show e = .unexpected from custom]
  | ok found =>
      obtain ⟨⟨text, sort⟩, after⟩ := found
      rw [read] at custom
      obtain rfl : sort = .custom := custom.1
      rfl

/-- The keywords of types, apart from dates, and of arrays. -/
def typeWordsNotDate : List String := "ARRAY" :: typeWords.filter (· != "DATE")

theorem typedLiteral_of_not_word {t : Token} (ht : ∀ w quoted, t ≠ .word w quoted) :
    typedLiteral lead (t :: ts) = .error .unexpected := by
  have : dataTypeWithin ((t :: ts).length + 1) (t :: ts) = .error .unexpected := by
    simp only [dataTypeWithin, run_bind, run_ahead, run_next]
    cases t with
    | word w quoted => exact absurd rfl (ht w quoted)
    | _ => rfl
  simp only [typedLiteral, dataType, run_bind, run_ahead, this]

/-! ### Names of built-in types in the place of columns and of functions -/

variable {S : List Symbol} {W : List String}

/-- The keywords that the name of a type can go on with. -/
def typeParts : List String := ["UNSIGNED", "PRECISION", "VARYING", "LARGE", "WITH", "WITHOUT"]

/-- A built-in type takes no more than its keyword where nothing goes on with it. -/
theorem keywordType_before (k : String) (hS : .leftParen ∉ S) (hW : ∀ k ∈ typeParts, k ∉ W) :
    ∃ read : Option (Option DataType),
      (k ≠ "INTERVAL" → ∀ found ∈ read, ∀ type ∈ found, type.sort ≠ .interval) ∧
      ∀ rest, Before S W rest → keywordType k rest = match read with
        | none => .error .unexpected
        | some found => .ok (found, rest) := by
  simp only [typeParts, List.forall_mem_cons] at hW
  obtain ⟨unsigned, precise, varying, large, zoned, unzoned, -⟩ := hW
  have parts : ∀ {α : Type} (p : Parse α) (rest : List Token), Before S W rest →
      optionalInParens p rest = .ok (none, rest) := fun p rest h => h.optionalInParens hS
  have precision : ∀ rest, Before S W rest → optionalPrecision rest = .ok ("", rest) := by
    intro rest h
    simp only [optionalPrecision, run_bind, parts _ _ h, run_pure]
  have scale : ∀ rest, Before S W rest → optionalScale rest = .ok ("", rest) := by
    intro rest h
    simp only [optionalScale, run_bind, parts _ _ h, run_pure, Option.getD_none]
  have length : ∀ rest, Before S W rest → optionalLength rest = .ok ("", rest) := by
    intro rest h
    simp only [optionalLength, run_bind, parts _ _ h, run_pure, Option.getD_none]
  have zone : ∀ rest, Before S W rest → optionalTimeZone rest = .ok ("", rest) := by
    intro rest h
    simp only [optionalTimeZone, run_bind, h.keyword zoned, h.keyword unzoned, run_ite,
      Bool.false_eq_true, if_false, run_pure]
  have character : ∀ name rest, Before S W rest →
      characterType name rest = .ok (name ++ "", rest) := by
    intro name rest h
    simp only [characterType, run_bind, h.keyword varying, h.keywords large, length _ h, run_ite,
      Bool.false_eq_true, if_false, run_pure]
  have builtin : ∀ (p : Parse (Option DataType)) (text : String),
      (∀ rest, Before S W rest → p rest = .ok (some ⟨text, .builtin⟩, rest)) →
      ∃ read : Option (Option DataType),
        (k ≠ "INTERVAL" → ∀ found ∈ read, ∀ type ∈ found, type.sort ≠ .interval) ∧
        ∀ rest, Before S W rest → p rest = match read with
          | none => .error .unexpected
          | some found => .ok (found, rest) := by
    intro p text read
    refine ⟨some (some ⟨text, .builtin⟩), ?_, read⟩
    rintro - _ ⟨⟩ _ ⟨⟩
    exact nofun
  unfold keywordType
  cases plainTypes.lookup k with
  | some text => exact builtin _ text fun _ _ => rfl
  | none =>
      simp only
      split
      · refine builtin _ (k ++ "" ++ "") fun rest h => ?_
        simp only [run_bind, precision _ h, h.keyword unsigned]
        rfl
      split
      · refine builtin _ (k ++ "") fun rest h => ?_
        simp only [run_bind, precision _ h]
        rfl
      split
      · refine builtin _ (k ++ "") fun rest h => ?_
        simp only [run_bind, scale _ h]
        rfl
      have unread : ∀ p : Parse (Option DataType),
          (∀ rest, Before S W rest → p rest = .error .unexpected) →
          ∃ read : Option (Option DataType),
            (k ≠ "INTERVAL" → ∀ found ∈ read, ∀ type ∈ found, type.sort ≠ .interval) ∧
            ∀ rest, Before S W rest → p rest = match read with
              | none => .error .unexpected
              | some found => .ok (found, rest) :=
        fun p read => ⟨none, fun _ => nofun, read⟩
      have opens : ∀ rest, Before S W rest → expect .leftParen rest = .error .unexpected :=
        fun rest h => h.expect hS
      split
      · exact ⟨some (some ⟨"DATE", .date⟩), by simp, fun _ _ => rfl⟩
      · exact ⟨some (some ⟨"INTERVAL", .interval⟩), fun h => absurd rfl h, fun _ _ => rfl⟩
      · refine builtin _ "DOUBLE" fun rest h => ?_
        simp only [run_bind, h.keyword precise]
        rfl
      · exact builtin _ ("VARCHAR" ++ "") fun rest h => by simp only [run_bind, length _ h]; rfl
      · exact builtin _ ("NVARCHAR" ++ "") fun rest h => by simp only [run_bind, length _ h]; rfl
      · refine builtin _ ("CHARACTER" ++ "") fun rest h => ?_
        simp only [run_bind, character _ _ h]
        rfl
      · refine builtin _ ("CHAR" ++ "") fun rest h => ?_
        simp only [run_bind, character _ _ h]
        rfl
      · refine builtin _ ("BIT" ++ "") fun rest h => ?_
        simp only [run_bind, h.keyword varying, run_ite, Bool.false_eq_true, if_false,
          precision _ h]
        rfl
      · refine builtin _ ("TIMESTAMP" ++ "" ++ "") fun rest h => ?_
        simp only [run_bind, precision _ h, zone _ h]
        rfl
      · refine builtin _ ("TIME" ++ "" ++ "") fun rest h => ?_
        simp only [run_bind, precision _ h, zone _ h]
        rfl
      · refine builtin _ ("TIMESTAMPTZ" ++ "") fun rest h => ?_
        simp only [run_bind, precision _ h]
        rfl
      · refine builtin _ ("TIMETZ" ++ "") fun rest h => ?_
        simp only [run_bind, precision _ h]
        rfl
      · exact unread _ fun rest h => by simp only [run_bind, opens _ h]
      · exact unread _ fun rest h => by simp only [run_bind, inParens, opens _ h]
      · exact unread _ fun rest h => by simp only [run_bind, enumMembers, inParens, opens _ h]
      · exact unread _ fun rest h => by simp only [run_bind, enumMembers, inParens, opens _ h]
      · exact unread _ fun rest h => by simp only [run_bind, enumMembers, inParens, opens _ h]
      · exact unread _ fun rest h => by simp only [run_bind, textList, inParens, opens _ h]
      · exact ⟨some none, by simp, fun _ _ => rfl⟩

theorem arrayBounds_of_unbracketed {type : DataType} (hb : Token.symbol .leftBracket ∉ ts) :
    arrayBounds type ts = .ok (type, ts) := by
  refine iterate_of_steps (.stop ?_)
  have : accept .leftBracket ts = .ok (false, ts) := by
    cases ts with
    | nil => rfl
    | cons t ts =>
        simp only [List.mem_cons, not_or] at hb
        rw [accept_cons, if_neg (Ne.symm hb.1)]
  simp only [run_bind, this, run_ite, Bool.false_eq_true, if_false, run_pure]

theorem dataType_of_some {quoted : Bool} {type : DataType}
    (hk : (Token.word w quoted).keyword? ≠ some "ARRAY")
    (hn : keywordType ((Token.word w quoted).keyword?.getD "") ts = .ok (some type, ts))
    (hb : Token.symbol .leftBracket ∉ ts) :
    dataType (.word w quoted :: ts) = .ok (type, ts) := by
  simp only [dataType, run_bind, run_ahead, dataTypeWithin, run_next, isKeyword_of_ne hk, hn,
    run_ite, run_pure, Bool.false_eq_true, if_false, arrayBounds_of_unbracketed hb]

theorem typedLiteral_of_some {quoted : Bool} {type : DataType}
    (hk : (Token.word w quoted).keyword? ≠ some "ARRAY")
    (hn : keywordType ((Token.word w quoted).keyword?.getD "") ts = .ok (some type, ts))
    (hb : Token.symbol .leftBracket ∉ ts) (hs : type.sort ≠ .interval)
    (hl : literalText ts = .error .unexpected) :
    typedLiteral lead (.word w quoted :: ts) = .error .unexpected := by
  simp only [typedLiteral, run_bind, dataType_of_some hk hn hb]
  obtain ⟨text, sort⟩ := type
  cases sort with
  | interval => exact absurd rfl hs
  | custom => rfl
  | _ => simp only [run_bind, hl]

theorem literalText_before (h : Before S W rest) (hW : ∀ w ∈ W, keywordList.contains w = true) :
    literalText rest = .error .unexpected := by
  rcases h.cases with rfl | ⟨s, more, -, rfl⟩ | ⟨w, more, hw, hc, rfl⟩
  · rfl
  · rfl
  · have : (Token.word w false).isPlainWord = false := by
      rw [Token.isPlainWord, Text.upper_of_capital hc, hW w hw]
      rfl
    simp only [literalText, run_bind, run_next, run_ite, this, Bool.false_eq_true, if_false,
      run_fail]

/-- A name starts no literal where nothing goes on with it, even if it is the name of a type. -/
theorem typedLiteral_before {quoted : Bool} (h : Before S W rest) (hS : .leftParen ∉ S)
    (hW : ∀ k ∈ typeParts, k ∉ W) (known : ∀ w ∈ W, keywordList.contains w = true)
    (array : (Token.word w quoted).keyword? ≠ some "ARRAY")
    (interval : (Token.word w quoted).keyword? ≠ some "INTERVAL") :
    typedLiteral lead (.word w quoted :: rest) = .error .unexpected := by
  have hk : (Token.word w quoted).keyword?.getD "" ≠ "INTERVAL" := by
    cases found : (Token.word w quoted).keyword? with
    | none => decide
    | some k =>
        rintro rfl
        exact interval found
  obtain ⟨outcome, sorted, reads⟩ :=
    keywordType_before ((Token.word w quoted).keyword?.getD "") hS hW
  have read := reads rest h
  cases outcome with
  | none =>
      simp only [typedLiteral, dataType, run_bind, run_ahead, dataTypeWithin, run_next,
        isKeyword_of_ne array, read, run_ite, Bool.false_eq_true, if_false]
  | some found =>
      cases found with
      | none => exact typedLiteral_of_none array read h.unbracketed
      | some type =>
          exact typedLiteral_of_some array read h.unbracketed (sorted hk _ rfl type rfl)
            (literalText_before h known)

/-- The name of a type is read in the same way wherever nothing goes on with it. -/
theorem dataType_before {type : DataType} (h : Before S W rest) (hS : .leftParen ∉ S)
    (period : .period ∉ S) (hW : ∀ k ∈ typeParts, k ∉ W)
    (array : (Token.word w false).keyword? ≠ some "ARRAY")
    (alone : dataType [.word w false] = .ok (type, [])) :
    dataType (.word w false :: rest) = .ok (type, rest) := by
  obtain ⟨outcome, -, reads⟩ :=
    keywordType_before ((Token.word w false).keyword?.getD "") hS hW
  have ends := reads [] before_nil
  have read := reads rest h
  cases outcome with
  | none =>
      simp only [dataType, run_bind, run_ahead, dataTypeWithin, run_next,
        isKeyword_of_ne array, ends, run_ite, Bool.false_eq_true, if_false] at alone
      cases alone
  | some found =>
      cases found with
      | some known =>
          rw [dataType_of_some array ends List.not_mem_nil] at alone
          cases alone
          exact dataType_of_some array read h.unbracketed
      | none =>
          have named : ∀ more, Before S W more → customType (.word w false :: more) =
              .ok (⟨pathText [wordIdent w false], .custom⟩, more) := by
            intro more hm
            have one := @path_single more w false (hm.accept period)
            simp only [customType, run_bind, one, hm.accept hS, Bool.false_eq_true,
              if_false, run_pure, List.isEmpty_nil, if_true,
              arrayBounds_of_unbracketed hm.unbracketed]
          rw [dataType_of_none array ends, named [] before_nil] at alone
          cases alone
          rw [dataType_of_none array read, named rest h]

/-- The name of a function starts no literal, even if it is the one of dates. -/
theorem typedLiteral_of_call {quoted : Bool}
    (hk : (Token.word w quoted).keyword?.getD "" ∉ typeWordsNotDate)
    (hb : Token.symbol .leftBracket ∉ ts) :
    typedLiteral lead (.word w quoted :: .symbol .leftParen :: ts) = .error .unexpected := by
  simp only [typeWordsNotDate, List.mem_cons, List.mem_filter, bne_iff_ne, not_or, not_and,
    not_not] at hk
  have array : (Token.word w quoted).keyword? ≠ some "ARRAY" := by
    intro h
    rw [h] at hk
    exact hk.1 rfl
  have unbracketed : Token.symbol .leftBracket ∉ .symbol .leftParen :: ts := by simpa using hb
  by_cases date : (Token.word w quoted).keyword?.getD "" = "DATE"
  · have type : keywordType ((Token.word w quoted).keyword?.getD "") (.symbol .leftParen :: ts) =
        .ok (some ⟨"DATE", .date⟩, .symbol .leftParen :: ts) := by
      rw [date]
      rfl
    exact typedLiteral_of_some array type unbracketed nofun rfl
  · refine typedLiteral_of_none array ?_ unbracketed
    rw [keywordType_none fun h => date (hk.2 h)]
    rfl

end ReportSql.Sql.Grammar
