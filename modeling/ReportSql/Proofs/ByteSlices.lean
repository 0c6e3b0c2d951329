import ReportSql.Proofs.ByteRanges
import ReportSql.Proofs.MaskedTexts
import ReportSql.Proofs.TrimmedTexts

/-!
Texts that are masked and trimmed by cutting them at bytes. No cut lies outside of the text or inside
a character, and what the cuts give is what the characters of the tokens give.
-/
namespace ReportSql.Text

variable {α β : Type} {pattern : List β → Option (α × Nat)} {w rest : List β}

/-- A part of a sequence in which no occurrence of a pattern starts. -/
theorem segments_plains (h : ∀ u b v, w = u ++ b :: v → pattern (b :: (v ++ rest)) = none) :
    segments pattern (w ++ rest) = w.map .plain ++ segments pattern rest := by
  induction w with
  | nil => rfl
  | cons b w ih =>
      have own := h [] b w rfl
      have later := ih fun u c v split => h (b :: u) c v (by rw [split, List.cons_append])
      rw [List.cons_append, segments_plain own, later, List.map_cons, List.cons_append]

end ReportSql.Text

namespace ReportSql.Sql

open Placeholder (Lexeme.places Place mask maskChars nameBetween_some isName placeholderAt? places
  sentinel split text text_chars write)
open Text (Cuts Segment cuts_segments segments segments_plain segments_plains segments_found)

variable {s cs : List Char} {ls : List Lexeme} {ranges : List Span} {n start : Nat}

/-! ### Places by ranges -/

/-- The characters of a text from a byte on, each with whether a placeholder may start there. -/
def placesWithin (ranges : List Span) (start : Nat) (s : List Char) : List Place :=
  (charOffsetsFrom start s).map fun x => (x.2, !isEnclosed ranges x.1)

theorem placesWithin_cons (c : Char) (s : List Char) :
    placesWithin ranges start (c :: s) =
      (c, !isEnclosed ranges start) :: placesWithin ranges (start + c.utf8Size) s := rfl

theorem placesWithin_append (s t : List Char) :
    placesWithin ranges start (s ++ t) =
      placesWithin ranges start s ++ placesWithin ranges (start + byteSize s) t := by
  rw [placesWithin, charOffsetsFrom_append, List.map_append]
  rfl

theorem map_fst_placesWithin (ranges : List Span) (start : Nat) (s : List Char) :
    (placesWithin ranges start s).map Prod.fst = s := by
  induction s generalizing start with
  | nil => rfl
  | cons c rest ih => rw [placesWithin_cons, List.map_cons, ih]

theorem mem_charOffsetsFrom {x : Nat × Char} (h : x ∈ charOffsetsFrom start s) :
    start ≤ x.1 ∧ x.1 < start + byteSize s := by
  induction s generalizing start with
  | nil => cases h
  | cons c rest ih =>
      have some := c.utf8Size_pos
      rw [byteSize]
      cases h with
      | head => dsimp only; omega
      | tail _ later =>
          have := ih later
          omega

/-- The ranges of lexemes in which no placeholder starts, the first lexeme starting at a byte. -/
def enclosingFrom (start : Nat) (ls : List Lexeme) : List Span :=
  enclosing ((spansFrom start ls).map fun x => (x.1.token, x.2))

theorem enclosingFrom_cons (l : Lexeme) (ls : List Lexeme) :
    enclosingFrom start (l :: ls) =
      (if l.token.isOperator then [] else [⟨start, start + byteSize l.source⟩]) ++
        enclosingFrom (start + byteSize l.source) ls := by
  rw [enclosingFrom, spansFrom, List.map_cons, enclosing, List.filter_cons]
  cases l.token.isOperator <;> rfl

theorem isEnclosed_append (rs ts : List Span) :
    isEnclosed (rs ++ ts) n = (isEnclosed rs n || isEnclosed ts n) :=
  List.any_append

/-- No byte is enclosed by what starts there or later. -/
theorem isEnclosed_before (h : n ≤ start) (ls : List Lexeme) :
    isEnclosed (enclosingFrom start ls) n = false := by
  induction ls generalizing start with
  | nil => rfl
  | cons l rest ih =>
      rw [enclosingFrom_cons, isEnclosed_append, ih (by omega), Bool.or_false]
      split
      · rfl
      · simp [isEnclosed]
        omega

theorem isEnclosed_cons (l : Lexeme) (ls : List Lexeme) :
    isEnclosed (enclosingFrom start (l :: ls)) n =
      ((!l.token.isOperator && decide (start < n) && decide (n < start + byteSize l.source)) ||
        isEnclosed (enclosingFrom (start + byteSize l.source) ls) n) := by
  rw [enclosingFrom_cons, isEnclosed_append]
  cases l.token.isOperator <;> simp [isEnclosed]

theorem placesWithin_const (enclosed : Bool)
    (h : ∀ x ∈ charOffsetsFrom start s, isEnclosed ranges x.1 = enclosed) :
    placesWithin ranges start s = s.map (·, !enclosed) := by
  induction s generalizing start with
  | nil => rfl
  | cons c rest ih =>
      obtain ⟨own, others⟩ := List.forall_mem_cons.mp h
      rw [placesWithin_cons, ih others, own, List.map_cons]

/-- A placeholder may start anywhere in an operator, and at the start of any other token. -/
theorem placesWithin_lexeme (l : Lexeme) (ls : List Lexeme) :
    placesWithin (enclosingFrom start (l :: ls)) start l.source = Lexeme.places l := by
  obtain ⟨token, source⟩ := l
  have after : ∀ x ∈ charOffsetsFrom start source,
      isEnclosed (enclosingFrom (start + byteSize source) ls) x.1 = false := fun x hx =>
    isEnclosed_before (by have := mem_charOffsetsFrom hx; omega) ls
  cases operator : token.isOperator with
  | true =>
      obtain ⟨t, rfl⟩ : ∃ t, token = .operator t := by
        cases token <;> simp_all [Token.isOperator]
      refine placesWithin_const false fun x hx => ?_
      rw [isEnclosed_cons, after x hx, operator]
      rfl
  | false =>
      cases source with
      | nil => cases token <;> rfl
      | cons c tail =>
          have first : isEnclosed (enclosingFrom start (⟨token, c :: tail⟩ :: ls)) start = false := by
            rw [isEnclosed_cons, after (start, c) List.mem_cons_self]
            simp
          have inside : ∀ x ∈ charOffsetsFrom (start + c.utf8Size) tail,
              isEnclosed (enclosingFrom start (⟨token, c :: tail⟩ :: ls)) x.1 = true := by
            intro x hx
            have bounds := mem_charOffsetsFrom hx
            have some := c.utf8Size_pos
            have above : start < x.1 := by omega
            have below : x.1 < start + byteSize (c :: tail) := by
              rw [byteSize]
              omega
            rw [isEnclosed_cons, operator, decide_eq_true above, decide_eq_true below]
            rfl
          rw [placesWithin_cons, first, placesWithin_const true inside]
          cases token <;> first | rfl | cases operator

/-- A placeholder may start where no token encloses a character. -/
theorem places_enclosing (ls : List Lexeme) (start : Nat) :
    placesWithin (enclosingFrom start ls) start (ls.flatMap Lexeme.source) =
      ls.flatMap Lexeme.places := by
  induction ls generalizing start with
  | nil => rfl
  | cons l rest ih =>
      have later : placesWithin (enclosingFrom start (l :: rest)) (start + byteSize l.source)
          (rest.flatMap Lexeme.source) = rest.flatMap Lexeme.places := by
        rw [← ih (start + byteSize l.source), placesWithin, placesWithin]
        refine List.map_congr_left fun x hx => ?_
        have bounds := mem_charOffsetsFrom hx
        have past : decide (x.1 < start + byteSize l.source) = false := by simp; omega
        rw [isEnclosed_cons, past, Bool.and_false, Bool.false_or]
      rw [List.flatMap_cons, List.flatMap_cons, placesWithin_append, placesWithin_lexeme, later]

theorem places_eq (s : List Char) :
    places s = placesWithin (enclosingFrom 0 ((lexChars s).getD [])) 0 s := by
  rw [places]
  cases lexes : lexChars s with
  | some ls =>
      have whole := Output.source_of_lexes (lexes_of_lexChars lexes)
      rw [Option.getD_some, ← whole, places_enclosing]
  | none => exact (placesWithin_const false fun _ _ => rfl).symm

/-! ### Masked texts -/

variable {name : String} {segs : List (Segment String Char)}

theorem leadingPlaceholder?_some {size : Nat} (h : leadingPlaceholder? cs = some (name, size)) :
    isName name = true ∧ ∃ rest, cs = (text name).toList ++ rest ∧
      size = (text name).toList.length := by
  rw [text_chars]
  exact nameBetween_some h

/-- A percent sign stands at the start of a placeholder only. -/
theorem percent_starts (hn : isName name = true) :
    ∃ tail, (text name).toList = '%' :: tail ∧ '%' ∉ tail := by
  refine ⟨'(' :: name.toList ++ [')', 's'], by rw [text_chars]; rfl, ?_⟩
  obtain ⟨-, -, -, -, parts⟩ := isName_cons hn
  have noPercent : '%' ∉ name.toList := fun inside => by
    have part := parts '%' inside
    revert part
    decide
  simp [noPercent]

/-- No placeholder starts at a percent sign that is not allowed to start one. -/
theorem placeholderAt?_barred {p : Place} {ps : List Place} (h : p.1 = '%' → p.2 = false) :
    placeholderAt? (p :: ps) = none := by
  unfold placeholderAt?
  split
  · next same =>
    cases same
    cases h rfl
  · rfl

theorem placeholderAt?_free (ranges : List Span) (h : leadingPlaceholder? cs = none) (n : Nat) :
    placeholderAt? (placesWithin ranges n cs) = none := by
  unfold placeholderAt?
  split
  · rw [map_fst_placesWithin]
    exact h
  · rfl

/-- A placeholder is found where one may start. -/
theorem segments_allowed
    (h : leadingPlaceholder? ((text name).toList ++ cs) = some (name, (text name).toList.length))
    (allowed : isEnclosed ranges start = false) :
    segments placeholderAt? (placesWithin ranges start ((text name).toList ++ cs)) =
      .found name :: segments placeholderAt?
        (placesWithin ranges (start + byteSize (text name).toList) cs) := by
  have chars := map_fst_placesWithin ranges start ((text name).toList ++ cs)
  have length : (placesWithin ranges start (text name).toList).length =
      (text name).toList.length := by
    rw [← List.length_map Prod.fst, map_fst_placesWithin]
  have head : ∃ ps, placesWithin ranges start (text name).toList = ('%', true) :: ps :=
    ⟨_, by rw [text_chars, List.append_assoc, List.cons_append, placesWithin_cons, allowed]; rfl⟩
  have found : placeholderAt? (placesWithin ranges start ((text name).toList ++ cs)) =
      some (name, (text name).toList.length) := by
    obtain ⟨ps, head⟩ := head
    rw [placesWithin_append, head, List.cons_append] at chars ⊢
    unfold placeholderAt?
    rw [← h, ← chars]
    rfl
  rw [placesWithin_append] at found ⊢
  refine segments_found (fun none => ?_) (length.symm ▸ found)
  obtain ⟨ps, head⟩ := head
  rw [head] at none
  cases none

/-- What looks like a placeholder is plain text where none may start. -/
theorem segments_barred (hn : isName name = true) (barred : isEnclosed ranges start = true)
    (cs : List Char) :
    segments placeholderAt? (placesWithin ranges start ((text name).toList ++ cs)) =
      (placesWithin ranges start (text name).toList).map .plain ++ segments placeholderAt?
        (placesWithin ranges (start + byteSize (text name).toList) cs) := by
  obtain ⟨tail, percent, free⟩ := percent_starts hn
  rw [placesWithin_append, percent]
  refine segments_plains fun u p v split => placeholderAt?_barred fun own => ?_
  rw [placesWithin_cons, barred] at split
  cases u with
  | nil => exact congrArg Prod.snd (List.cons.inj split).1.symm
  | cons q u =>
      have later : p ∈ placesWithin ranges (start + '%'.utf8Size) tail := by
        rw [(List.cons.inj split).2]
        exact List.mem_append_right _ List.mem_cons_self
      have inside := List.mem_map_of_mem (f := Prod.fst) later
      rw [map_fst_placesWithin, own] at inside
      exact absurd inside free

theorem write_plains (ps : List Place) :
    (ps.map Segment.plain).flatMap (write sentinel) = ps.map Prod.fst := by
  induction ps with
  | nil => rfl
  | cons p rest ih => exact congrArg (p.1 :: ·) ih

/-- Cutting a text at the placeholders that are kept masks just these. What was passed since the last
of them is still to be copied. -/
theorem maskFrom?_eq (ranges : List Span) (cuts : Cuts leadingPlaceholder? cs segs)
    (done pending : List Char) :
    maskFrom? (done ++ pending ++ cs) (byteSize done)
        ((foundFrom (byteSize (done ++ pending)) segs).filter fun x =>
          !isEnclosed ranges x.2.start) =
      some (pending ++ (segments placeholderAt?
        (placesWithin ranges (byteSize (done ++ pending)) cs)).flatMap (write sentinel)) := by
  induction cuts generalizing done pending with
  | nil =>
      have last := slice?_middle done pending []
      rw [List.append_nil] at last
      rw [foundFrom, List.filter_nil, maskFrom?, List.append_nil, last]
      simp [placesWithin, charOffsetsFrom, segments, Text.segmentsAfter]
  | @plain c rest more free _ ih =>
      have next := ih done (pending ++ [c])
      have first := placeholderAt?_free ranges free (byteSize (done ++ pending))
      rw [placesWithin_cons] at first ⊢
      rw [segments_plain first, List.flatMap_cons, foundFrom]
      simpa [byteSize, write, Nat.add_assoc] using next
  | @found w rest name more nonempty occurs _ ih =>
      obtain ⟨named, after, chars, size⟩ := leadingPlaceholder?_some occurs
      obtain ⟨rfl, -⟩ := List.append_inj chars size
      rw [foundFrom]
      cases enclosed : isEnclosed ranges (byteSize (done ++ pending)) with
      | false =>
          have next := ih (done ++ pending ++ (text name).toList) []
          rw [List.append_nil] at next
          have before := slice?_middle done pending ((text name).toList ++ rest)
          simp only [List.filter_cons, enclosed, Bool.not_false, if_true]
          rw [maskFrom?, before, segments_allowed occurs enclosed, ← byteSize_append,
            ← List.append_assoc, next]
          simp [write]
      | true =>
          have next := ih done (pending ++ (text name).toList)
          simp only [List.filter_cons, enclosed, Bool.not_true, Bool.false_eq_true, if_false]
          rw [segments_barred named enclosed, List.flatMap_append, write_plains,
            map_fst_placesWithin, ← byteSize_append, ← List.append_assoc, List.append_assoc done, next,
            List.append_assoc]

theorem cuts_leadingPlaceholder (s : List Char) :
    Cuts leadingPlaceholder? s (segments leadingPlaceholder? s) := by
  refine cuts_segments (fun cs name size h => ?_) s
  obtain ⟨-, rest, rfl, rfl⟩ := leadingPlaceholder?_some h
  rw [text_chars]
  simp

/-- Masking a text by bytes succeeds, and masks the placeholders that no token encloses. -/
theorem maskSlices?_ranged (h : ranges? s ls = some (ranged ls)) :
    maskSlices? s ls = some ((segments placeholderAt?
      (placesWithin (enclosingFrom 0 ls) 0 s)).flatMap (write sentinel)) := by
  rw [maskSlices?, h]
  exact maskFrom?_eq (enclosingFrom 0 ls) (cuts_leadingPlaceholder s) [] []

/-- It gives what masking the text by its characters gives. -/
theorem maskSlices?_lexed (s : List Char) :
    maskSlices? s ((lexChars s).getD []) = some (maskChars s) := by
  have found : ranges? s ((lexChars s).getD []) = some (ranged ((lexChars s).getD [])) := by
    cases lexes : lexChars s with
    | some ls => exact ranges?_eq (Output.source_of_lexes (lexes_of_lexChars lexes))
    | none => rfl
  rw [maskSlices?_ranged found, Placeholder.maskChars_eq, split, places_eq]

/-! ### Trimmed texts -/

open Gate (trimLexemes trimLexemes_head trimLexemes_last trimLexemes_split trimText trimText_eq)

/-- The tokens that are no fillers, with the bytes they span, the first lexeme starting at a byte. -/
def significantFrom (start : Nat) (ls : List Lexeme) : List (Token × Span) :=
  ((spansFrom start ls).map fun x => (x.1.token, x.2)).filter fun x => !x.1.isFiller

theorem significantFrom_cons (l : Lexeme) (ls : List Lexeme) :
    significantFrom start (l :: ls) =
      (if l.token.isFiller then [] else [(l.token, ⟨start, start + byteSize l.source⟩)]) ++
        significantFrom (start + byteSize l.source) ls := by
  rw [significantFrom, spansFrom, List.map_cons, List.filter_cons]
  cases l.token.isFiller <;> rfl

theorem significantFrom_append (start : Nat) (ls ms : List Lexeme) :
    significantFrom start (ls ++ ms) =
      significantFrom start ls ++
        significantFrom (start + byteSize (ls.flatMap Lexeme.source)) ms := by
  induction ls generalizing start with
  | nil => rfl
  | cons l rest ih =>
      rw [List.cons_append, significantFrom_cons, significantFrom_cons, ih, List.append_assoc,
        List.flatMap_cons, byteSize_append, Nat.add_assoc]

theorem significantFrom_fillers (fillers : ∀ l ∈ ls, l.token.isFiller = true) (start : Nat) :
    significantFrom start ls = [] := by
  induction ls generalizing start with
  | nil => rfl
  | cons l rest ih =>
      obtain ⟨own, others⟩ := List.forall_mem_cons.mp fillers
      rw [significantFrom_cons, own, ih others]
      rfl

theorem significantFrom_last {l : Lexeme} (h : l.token.isFiller = false) (start : Nat)
    (ls : List Lexeme) : ∃ x, (significantFrom start (ls ++ [l])).getLast? = some x ∧
      x.2.stop = start + byteSize ((ls ++ [l]).flatMap Lexeme.source) := by
  refine ⟨_, by rw [significantFrom_append, significantFrom_cons, h]; exact List.getLast?_concat, ?_⟩
  simp [Nat.add_assoc]

/-- The tokens of some lexemes that neither start nor end with a filler reach from their first byte to
their last. -/
theorem significantFrom_ends (start : Nat) (nonempty : ls ≠ [])
    (first : ∀ l, ls.head? = some l → l.token.isFiller = false)
    (last : ∀ l, ls.getLast? = some l → l.token.isFiller = false) :
    ∃ x rest, significantFrom start ls = x :: rest ∧ x.2.start = start ∧
      (rest.getLastD x).2.stop = start + byteSize (ls.flatMap Lexeme.source) := by
  have ends : ∃ x, (significantFrom start ls).getLast? = some x ∧
      x.2.stop = start + byteSize (ls.flatMap Lexeme.source) := by
    obtain ⟨before, z, rfl⟩ := List.eq_nil_or_concat' ls |>.resolve_left nonempty
    exact significantFrom_last (last z List.getLast?_concat) start before
  obtain ⟨z, own, stop⟩ := ends
  obtain ⟨l, more, rfl⟩ := List.exists_cons_of_ne_nil nonempty
  rw [significantFrom_cons, first l rfl] at own ⊢
  refine ⟨_, _, rfl, rfl, ?_⟩
  rw [← stop, List.getLastD_eq_getLast?]
  exact congrArg (·.2.stop) (Option.some.inj (List.getLast?_cons.symm.trans own))

/-- Trimming a text by bytes succeeds, and keeps the lexemes between the fillers at its ends. -/
theorem trimSlices?_ranged (whole : ls.flatMap Lexeme.source = s) :
    trimSlices? s ls = some (if (ls.all fun l => l.token.isFiller) = true then Text.trimChars s
      else (trimLexemes ls).flatMap Lexeme.source) := by
  have tokens : (ranged ls).filter (fun x => !x.1.isFiller) = significantFrom 0 ls := rfl
  rw [trimSlices?, ranges?_eq whole, Option.bind_eq_bind, Option.bind_some, tokens]
  by_cases fillers : (ls.all fun l => l.token.isFiller) = true
  · rw [significantFrom_fillers (List.all_eq_true.mp fillers), if_pos fillers]
    rfl
  · have kept : ∃ l ∈ ls, l.token.isFiller = false := by simpa using fillers
    obtain ⟨before, after, split, first, last⟩ := trimLexemes_split ls
    obtain ⟨l, inside, -⟩ := Gate.trimLexemes_kept kept
    obtain ⟨x, rest, significant, start, stop⟩ := significantFrom_ends
      (byteSize (before.flatMap Lexeme.source)) (List.ne_nil_of_mem inside)
      (fun _ => trimLexemes_head) fun _ => trimLexemes_last
    have own : significantFrom 0 ls = x :: rest := by
      rw [split, significantFrom_append, significantFrom_append, significantFrom_fillers first,
        significantFrom_fillers last, List.append_nil, List.nil_append, Nat.zero_add, significant]
    rw [split, List.flatMap_append, List.flatMap_append, ← List.append_assoc] at whole
    rw [own, if_neg fillers]
    dsimp only
    rw [start, stop, ← byteSize_append, ← whole, slice?_middle]

theorem trimSlices?_lexed {text : String} (scanned : lex text = some ls) :
    trimSlices? text.toList ls = some (trimText text).toList := by
  have whole := Output.source_of_lexes (lexes_of_lexChars scanned)
  rw [trimSlices?_ranged whole, trimText, scanned]
  dsimp only
  split
  · rw [Text.trim, String.toList_ofList]
  · rw [String.toList_ofList]

/-! ### Tokenized texts -/

/-- The lexemes of a text cover it. The ranges of tokens that cover a text lie one after the other
from its start to its end, and on boundaries of characters, so that what they hold is the text.
Nothing that a text is cut at to mask or to trim it lies outside of it or inside a character, and its
own lexemes give the text that is masked or trimmed by characters. -/
theorem ranges_tile (text : String) (ls : List Lexeme) :
    (lex text = some ls → ls.flatMap Lexeme.source = text.toList) ∧
    (ls.flatMap Lexeme.source = text.toList →
      ∃ found masked trimmed, ranges? text.toList ls = some found ∧
        found.map Prod.fst = ls.map Lexeme.token ∧
        Tiles 0 (found.map Prod.snd) text.utf8ByteSize ∧
        (∀ r ∈ found.map Prod.snd, String.Pos.Raw.IsValid text ⟨r.start⟩ ∧
          String.Pos.Raw.IsValid text ⟨r.stop⟩) ∧
        (found.mapM fun x => x.2.slice? text.toList) = some (ls.map Lexeme.source) ∧
        (ls.map Lexeme.source).flatten = text.toList ∧
        maskSlices? text.toList ls = some masked ∧ trimSlices? text.toList ls = some trimmed ∧
        (lex text = some ls → masked = (mask text).toList ∧ trimmed = (trimText text).toList)) := by
  refine ⟨fun scanned => Output.source_of_lexes (lexes_of_lexChars scanned), fun whole => ?_⟩
  have found := ranges?_eq whole
  refine ⟨ranged ls, _, _, found, map_fst_ranged ls, ?_, ?_, ?_, whole, maskSlices?_ranged found,
    trimSlices?_ranged whole, fun scanned => ?_⟩
  · have tiles := tiles_spansFrom 0 ls
    rwa [whole, byteSize_toList, Nat.zero_add, ← map_snd_ranged] at tiles
  · intro r hr
    rw [map_snd_ranged] at hr
    obtain ⟨x, hx, rfl⟩ := List.mem_map.mp hr
    obtain ⟨before, after, rfl, start, stop⟩ := mem_spansFrom (s := []) hx
    rw [List.flatMap_append, List.flatMap_cons] at whole
    rw [start, stop]
    exact ⟨isValid_of_append whole.symm,
      isValid_of_append (whole.symm.trans (List.append_assoc ..).symm)⟩
  · rw [ranged, List.mapM_map]
    have slices := slices_spansFrom [] ls
    rwa [List.nil_append, whole] at slices
  · have lexes : (lexChars text.toList).getD [] = ls := congrArg (Option.getD · []) scanned
    have masks := maskSlices?_lexed text.toList
    have trims := trimSlices?_lexed scanned
    rw [lexes, maskSlices?_ranged found] at masks
    rw [trimSlices?_ranged whole] at trims
    exact ⟨(Option.some.inj masks).trans (String.toList_ofList ..).symm, Option.some.inj trims⟩

/-- A literal over two lines with a letter of two bytes, before a placeholder and a comment. -/
def spreadText : String := "'é\r\n', %(n)s -- ü\n;"

theorem ranges_tile_spread : ∃ ls found, lex spreadText = some ls ∧
    ls.flatMap Lexeme.source = spreadText.toList ∧ ranges? spreadText.toList ls = some found ∧
    Tiles 0 (found.map Prod.snd) 21 := by
  obtain ⟨ls, scanned⟩ := Option.isSome_iff_exists.mp (by decide +kernel : (lex spreadText).isSome)
  have whole := (ranges_tile spreadText ls).1 scanned
  obtain ⟨found, -, -, ranges, -, tiles, -⟩ := (ranges_tile spreadText ls).2 whole
  exact ⟨ls, found, scanned, whole, ranges, tiles⟩

end ReportSql.Sql
