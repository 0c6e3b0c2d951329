import ReportSql.Proofs.WholeTexts
import ReportSql.Sql.Ranges

/-!
The bytes of tokens. The place after some text, counted in lines and columns, is turned into the
number of bytes that the text takes, so that the ranges of the tokens of a text lie one after the
other from its start to its end, and each holds the characters that its token was read from.
-/
namespace ReportSql.Sql

variable {s t before line : List Char} {c : Char} {place : Location} {ls : List Lexeme}

/-! ### Sizes and cuts -/

@[simp] theorem byteSize_append (s t : List Char) :
    byteSize (s ++ t) = byteSize s + byteSize t := by
  induction s with
  | nil => simp [byteSize]
  | cons c rest ih => simp [byteSize, ih, Nat.add_assoc]

theorem byteSize_ofList (s : List Char) : (String.ofList s).utf8ByteSize = byteSize s := by
  induction s with
  | nil => rfl
  | cons c rest ih =>
      rw [byteSize, ← ih, ← List.singleton_append, String.ofList_append,
        String.utf8ByteSize_append, ← String.singleton_eq_ofList, String.utf8ByteSize_singleton]

theorem byteSize_toList (s : String) : byteSize s.toList = s.utf8ByteSize := by
  rw [← byteSize_ofList, String.ofList_toList]

/-- A text is cut where one of its parts ends. -/
theorem cutAt?_append (s t : List Char) : cutAt? (byteSize s) (s ++ t) = some (s, t) := by
  induction s with
  | nil => simp [byteSize, cutAt?]
  | cons c rest ih =>
      obtain ⟨n, size⟩ := Nat.exists_eq_add_of_lt c.utf8Size_pos
      have next : byteSize (c :: rest) = (n + byteSize rest) + 1 := by
        rw [byteSize]
        omega
      rw [next, List.cons_append, cutAt?, if_neg (by omega)]
      have left : n + byteSize rest + 1 - c.utf8Size = byteSize rest := by omega
      rw [left, ih]
      rfl

/-- A text can be cut where one of its parts ends: a character starts there, or the text ends. -/
theorem isValid_of_append {text : String} (h : text.toList = s ++ t) :
    String.Pos.Raw.IsValid text ⟨byteSize s⟩ := by
  refine String.Pos.Raw.isValid_iff_exists_append.mpr ⟨String.ofList s, String.ofList t, ?_, ?_⟩
  · rw [← String.ofList_append, ← h, String.ofList_toList]
  · rw [← byteSize_ofList]
    rfl

theorem slice?_middle (before s after : List Char) :
    Span.slice? ⟨byteSize before, byteSize (before ++ s)⟩ (before ++ s ++ after) = some s := by
  have inside : byteSize (before ++ s) - byteSize before = byteSize s := by simp
  have order : ¬ byteSize (before ++ s) < byteSize before := by simp
  rw [Span.slice?, List.append_assoc, cutAt?_append]
  change (if byteSize (before ++ s) < byteSize before then none
    else (cutAt? (byteSize (before ++ s) - byteSize before) (s ++ after)).map Prod.fst) = some s
  rw [if_neg order, inside, cutAt?_append]
  rfl

/-! ### Lines and columns -/

theorem after_append (place : Location) (s t : List Char) :
    place.after (s ++ t) = (place.after s).after t :=
  List.foldl_append

theorem line_after (place : Location) (s : List Char) :
    (place.after s).line = place.line + s.count '\n' := by
  induction s generalizing place with
  | nil => rfl
  | cons c rest ih =>
      rw [Location.after, List.foldl_cons, ← Location.after, ih, Location.next, List.count_cons]
      by_cases ends : c = '\n'
      · simp only [ends, beq_self_eq_true, if_true]
        omega
      · simp [ends]

theorem column_after (place : Location) (h : '\n' ∉ s) :
    (place.after s).column = place.column + s.length := by
  induction s generalizing place with
  | nil => rfl
  | cons c rest ih =>
      rw [List.mem_cons, not_or] at h
      have inLine : place.next c = ⟨place.line, place.column + 1⟩ :=
        if_neg fun same => h.1 (beq_iff_eq.mp same).symm
      rw [Location.after, List.foldl_cons, ← Location.after, ih _ h.2, inLine, List.length_cons]
      dsimp only
      omega

/-- A text ends with a line of its own that starts at its beginning or after the end of a line. -/
theorem exists_lastLine (s : List Char) : ∃ before line, s = before ++ line ∧ '\n' ∉ line ∧
    (before = [] ∨ ∃ lines, before = lines ++ ['\n']) := by
  induction s with
  | nil => exact ⟨[], [], rfl, List.not_mem_nil, .inl rfl⟩
  | cons c rest ih =>
      obtain ⟨before, line, rfl, inside, starts⟩ := ih
      obtain rfl | ⟨lines, rfl⟩ := starts
      · by_cases ends : c = '\n'
        · exact ⟨[c], line, rfl, inside, .inr ⟨[], by rw [ends, List.nil_append]⟩⟩
        · exact ⟨[], c :: line, rfl, by simp [inside, Ne.symm ends], .inl rfl⟩
      · exact ⟨c :: (lines ++ ['\n']), line, rfl, inside, .inr ⟨c :: lines, rfl⟩⟩

/-- A line starts in the first column. -/
theorem column_start (starts : before = [] ∨ ∃ lines, before = lines ++ ['\n']) :
    (Location.first.after before).column = 1 := by
  obtain rfl | ⟨lines, rfl⟩ := starts
  · rfl
  · rw [after_append]
    rfl

/-! ### Bytes of places -/

theorem charOffsetsFrom_append (start : Nat) (s t : List Char) :
    charOffsetsFrom start (s ++ t) =
      charOffsetsFrom start s ++ charOffsetsFrom (start + byteSize s) t := by
  induction s generalizing start with
  | nil => simp [charOffsetsFrom, byteSize]
  | cons c rest ih => simp [charOffsetsFrom, byteSize, ih, Nat.add_assoc]

theorem length_charOffsetsFrom (start : Nat) (s : List Char) :
    (charOffsetsFrom start s).length = s.length := by
  induction s generalizing start with
  | nil => rfl
  | cons c rest ih => simp [charOffsetsFrom, ih]

/-- The character after some text starts where that text ends. -/
theorem charOffset_append (s t : List Char) :
    ((charOffsetsFrom 0 (s ++ t))[s.length]?).map Prod.fst =
      if t = [] then none else some (byteSize s) := by
  rw [charOffsetsFrom_append, List.getElem?_append_right (by simp [length_charOffsetsFrom]),
    length_charOffsetsFrom, Nat.sub_self]
  cases t <;> simp [charOffsetsFrom]

theorem count_newlines (start : Nat) (s : List Char) :
    ((charOffsetsFrom start s).filter fun x => x.2 == '\n').length = s.count '\n' := by
  induction s generalizing start with
  | nil => rfl
  | cons c rest ih =>
      rw [charOffsetsFrom, List.filter_cons, List.count_cons]
      split <;> simp_all

/-- Where as many lines have ended as end in some text, a line starts at its end. -/
theorem lineStarts_append (starts : before = [] ∨ ∃ lines, before = lines ++ ['\n'])
    (t : List Char) : (lineStarts (before ++ t))[before.count '\n']? = some (byteSize before) := by
  obtain rfl | ⟨lines, rfl⟩ := starts
  · rfl
  · have size : '\n'.utf8Size = 1 := rfl
    rw [lineStarts, List.append_assoc, charOffsetsFrom_append, List.filter_append, List.map_append,
      List.count_append]
    simp [count_newlines, charOffsetsFrom, byteSize, size]

/-- The byte of the place after some text is its size. -/
theorem offset?_after (s t : List Char) :
    (Location.first.after s).offset? (s ++ t) = some (byteSize s) := by
  obtain ⟨before, line, rfl, inside, starts⟩ := exists_lastLine s
  have row : (Location.first.after (before ++ line)).line = before.count '\n' + 1 := by
    rw [line_after, List.count_append, List.count_eq_zero.mpr inside]
    exact Nat.add_comm 1 _
  have column : (Location.first.after (before ++ line)).column - 1 = line.length := by
    rw [after_append, column_after _ inside, column_start starts]
    omega
  have character := charOffset_append line t
  rw [Location.offset?, row, column]
  dsimp only
  rw [List.append_assoc, lineStarts_append starts]
  dsimp only
  rw [cutAt?_append]
  dsimp only [Option.bind_eq_bind, Option.bind_some]
  cases t with
  | nil =>
      have past : (charOffsetsFrom 0 (line ++ []))[line.length]? = none := by simpa using character
      rw [past]
      simp
  | cons c t =>
      obtain ⟨⟨n, d⟩, found, rfl⟩ := Option.map_eq_some_iff.mp character
      rw [found]
      simp

/-! ### Ranges -/

/-- The tokens of lexemes with the bytes that they span in the text of all of them. -/
def ranged (ls : List Lexeme) : List (Token × Span) := (spans ls).map fun x => (x.1.token, x.2)

theorem ranges?_after (s : List Char) (ls : List Lexeme) :
    ((locatedFrom (Location.first.after s) ls).mapM fun l => do
      let start ← l.start.offset? (s ++ ls.flatMap Lexeme.source)
      let stop ← l.stop.offset? (s ++ ls.flatMap Lexeme.source)
      return (l.token, (⟨start, stop⟩ : Span))) =
      some ((spansFrom (byteSize s) ls).map fun x => (x.1.token, x.2)) := by
  induction ls generalizing s with
  | nil => rfl
  | cons l rest ih =>
      have next := ih (s ++ l.source)
      rw [after_append, List.append_assoc, byteSize_append] at next
      have stop := offset?_after (s ++ l.source) (rest.flatMap Lexeme.source)
      rw [after_append, List.append_assoc] at stop
      rw [locatedFrom, List.mapM_cons, List.flatMap_cons, offset?_after, stop, next]
      simp [spansFrom]

theorem ranges?_eq (whole : ls.flatMap Lexeme.source = s) : ranges? s ls = some (ranged ls) := by
  subst whole
  exact ranges?_after [] ls

theorem map_fst_ranged (ls : List Lexeme) : (ranged ls).map Prod.fst = ls.map Lexeme.token := by
  have own (start : Nat) : (spansFrom start ls).map (fun x => x.1.token) = ls.map Lexeme.token := by
    induction ls generalizing start with
    | nil => rfl
    | cons l rest ih => rw [spansFrom, List.map_cons, List.map_cons, ih]
  rw [ranged, List.map_map]
  exact own 0

theorem map_snd_ranged (ls : List Lexeme) :
    (ranged ls).map Prod.snd = (spansFrom 0 ls).map Prod.snd := by
  rw [ranged, List.map_map]
  rfl

/-- What the span of a lexeme holds is what the lexeme was read from. -/
theorem slices_spansFrom (s : List Char) (ls : List Lexeme) :
    ((spansFrom (byteSize s) ls).mapM fun x => x.2.slice? (s ++ ls.flatMap Lexeme.source)) =
      some (ls.map Lexeme.source) := by
  induction ls generalizing s with
  | nil => rfl
  | cons l rest ih =>
      have own := slice?_middle s l.source (rest.flatMap Lexeme.source)
      have others := ih (s ++ l.source)
      rw [byteSize_append] at own others
      rw [spansFrom, List.mapM_cons, List.flatMap_cons, ← List.append_assoc, own, others]
      rfl

/-- Whether spans lie one after the other, from one byte to another. -/
def Tiles (start : Nat) : List Span → Nat → Prop
  | [], stop => start = stop
  | r :: rest, stop => r.start = start ∧ r.start ≤ r.stop ∧ Tiles r.stop rest stop

theorem tiles_spansFrom (start : Nat) (ls : List Lexeme) :
    Tiles start ((spansFrom start ls).map Prod.snd)
      (start + byteSize (ls.flatMap Lexeme.source)) := by
  induction ls generalizing start with
  | nil => rfl
  | cons l rest ih =>
      have tail := ih (start + byteSize l.source)
      rw [Nat.add_assoc, ← byteSize_append, ← List.flatMap_cons] at tail
      exact ⟨rfl, Nat.le_add_right .., tail⟩

/-- A span of a lexeme is cut off where the lexemes before it end and where it ends itself. -/
theorem mem_spansFrom {x : Lexeme × Span} (h : x ∈ spansFrom (byteSize s) ls) :
    ∃ before after, ls = before ++ x.1 :: after ∧
      x.2.start = byteSize (s ++ before.flatMap Lexeme.source) ∧
      x.2.stop = byteSize (s ++ before.flatMap Lexeme.source ++ x.1.source) := by
  induction ls generalizing s with
  | nil => cases h
  | cons l rest ih =>
      rw [spansFrom, List.mem_cons, ← byteSize_append] at h
      cases h with
      | inl own =>
          subst own
          exact ⟨[], rest, rfl, by simp, by simp⟩
      | inr later =>
          obtain ⟨before, after, rfl, start, stop⟩ := ih later
          refine ⟨l :: before, after, rfl, ?_, ?_⟩
          · rw [start, List.flatMap_cons, List.append_assoc]
          · rw [stop, List.flatMap_cons, List.append_assoc s]

end ReportSql.Sql
