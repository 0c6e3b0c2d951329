import ReportSql.Proofs.Lookahead
import ReportSql.Proofs.ReadPlaceholders

/-!
Masking and unmasking a text. A scan for a pattern cuts a text into occurrences and the characters
between them; the sentinels of a masked text are found where the placeholders of the text were, so
that unmasking gives the text back.
-/
namespace ReportSql.Text

/-! ### Scans -/

/-- What a scan for a pattern cuts a sequence into, from left to right. -/
inductive Cuts {α β : Type} (pattern : List β → Option (α × Nat)) :
    List β → List (Segment α β) → Prop where
  | nil : Cuts pattern [] []
  | plain {b rest more} : pattern (b :: rest) = none → Cuts pattern rest more →
      Cuts pattern (b :: rest) (.plain b :: more)
  | found {w rest a more} : w ≠ [] → pattern (w ++ rest) = some (a, w.length) →
      Cuts pattern rest more → Cuts pattern (w ++ rest) (.found a :: more)

section

variable {α β : Type} {pattern : List β → Option (α × Nat)} {s w rest : List β} {a : α} {b : β}
  {cut : List (Segment α β)}

theorem segments_plain (h : pattern (b :: rest) = none) :
    segments pattern (b :: rest) = .plain b :: segments pattern rest := by
  rw [segments, segmentsAfter, h]
  rfl

theorem segments_found (hw : w ≠ []) (h : pattern (w ++ rest) = some (a, w.length)) :
    segments pattern (w ++ rest) = .found a :: segments pattern rest := by
  obtain ⟨b, w, rfl⟩ := List.exists_cons_of_ne_nil hw
  rw [segments, List.cons_append, segmentsAfter, ← List.cons_append, h]
  exact congrArg _ (Output.segmentsAfter_skip w rest)

theorem segments_eq_of_cuts (h : Cuts pattern s cut) : segments pattern s = cut := by
  induction h with
  | nil => rfl
  | plain none _ ih => rw [segments_plain none, ih]
  | found nonempty occurs _ ih => rw [segments_found nonempty occurs, ih]

/-- A scan cuts any sequence, if the pattern takes some elements and no more than there are. -/
theorem cuts_segments (bounded : ∀ s a size, pattern s = some (a, size) →
    0 < size ∧ size ≤ s.length) (s : List β) : Cuts pattern s (segments pattern s) := by
  induction length : s.length using Nat.strongRecOn generalizing s with
  | ind n ih =>
      subst length
      cases s with
      | nil => exact .nil
      | cons b rest =>
          cases occurs : pattern (b :: rest) with
          | none =>
              rw [segments_plain occurs]
              exact .plain occurs (ih _ (Nat.lt_succ_self _) rest rfl)
          | some found =>
              obtain ⟨a, size⟩ := found
              obtain ⟨some, most⟩ := bounded _ a size occurs
              obtain ⟨w, after, same, rfl⟩ : ∃ w after, b :: rest = w ++ after ∧ w.length = size :=
                ⟨_, _, (List.take_append_drop size (b :: rest)).symm, List.length_take_of_le most⟩
              have nonempty : w ≠ [] := List.ne_nil_of_length_pos some
              rw [same] at occurs ⊢
              rw [segments_found nonempty occurs]
              have shorter : after.length < (b :: rest).length := by
                rw [same, List.length_append]
                omega
              exact .found nonempty occurs (ih _ shorter after rfl)

end

end ReportSql.Text

namespace ReportSql.Sql.Placeholder

open Text (Cuts Segment cuts_segments foundValues segments segments_eq_of_cuts)

variable {s name : String} {cs opening closing rest : List Char} {ps : List Place} {size : Nat}
  {segs : List (Segment String Place)}

/-! ### Names between texts -/

theorem isName_leading (h : leadingName cs ≠ []) :
    isName (String.ofList (leadingName cs)) = true := by
  cases cs with
  | nil => exact absurd rfl h
  | cons c rest =>
      simp only [leadingName] at h ⊢
      split
      · next start => simp [isName, start]
      · next noStart => simp [noStart] at h

theorem leadingName_prefix (cs : List Char) : leadingName cs <+: cs := by
  cases cs with
  | nil => exact List.prefix_refl _
  | cons c rest =>
      simp only [leadingName]
      split
      · exact (List.prefix_cons_inj c).mpr (List.takeWhile_prefix _)
      · exact List.nil_prefix

theorem nameBetween_some (h : nameBetween opening closing cs = some (name, size)) :
    isName name = true ∧ ∃ rest, cs = opening ++ name.toList ++ closing ++ rest ∧
      size = (opening ++ name.toList ++ closing).length := by
  unfold nameBetween at h
  dsimp only at h
  split at h
  case isFalse => cases h
  next opens =>
  obtain ⟨after, rfl⟩ := List.isPrefixOf_iff_prefix.mp opens
  rw [List.drop_left] at h
  split at h
  case isTrue => cases h
  next nonempty =>
  split at h
  case isFalse => cases h
  next closes =>
  cases h
  obtain ⟨rest, same⟩ := leadingName_prefix after
  obtain ⟨more, close⟩ := List.isPrefixOf_iff_prefix.mp closes
  have named : (opening ++ after).drop (opening.length + (leadingName after).length) = rest := by
    have left := @List.drop_left _ (leadingName after) rest
    rw [same] at left
    rw [← List.drop_drop, List.drop_left, left]
  refine ⟨isName_leading (by simpa using nonempty), more, ?_, by simp; omega⟩
  rw [String.toList_ofList, List.append_assoc, List.append_assoc, close, named, same]

theorem nameBetween_name (hn : isName name = true)
    (hc : ∀ c ∈ (closing ++ rest).head?, isNamePart c = false) :
    nameBetween opening closing (opening ++ name.toList ++ closing ++ rest) =
      some (name, (opening ++ name.toList ++ closing).length) := by
  have own := Output.leadingName_append hn hc
  have nonempty : name.toList.isEmpty = false := by
    obtain ⟨c, tail, cons, -⟩ := isName_cons hn
    simp [cons]
  unfold nameBetween
  simp only [List.append_assoc, List.isPrefixOf_iff_prefix, List.prefix_append, if_true,
    List.drop_left, own, nonempty, Bool.false_eq_true, if_false, ← List.drop_drop,
    String.ofList_toList, List.length_append]
  rw [Nat.add_assoc]

/-! ### Places -/

/-- What is written for a segment, where a placeholder is written in some way. -/
def write (found : String → String) : Segment String Place → List Char
  | .plain (c, _) => [c]
  | .found name => (found name).toList

theorem map_fst_places (cs : List Char) : (places cs).map Prod.fst = cs := by
  unfold places
  split
  · next lexemes scanned =>
    rw [List.map_flatMap]
    simp only [Output.map_fst_places]
    exact Output.source_of_lexes (lexes_of_lexChars scanned)
  · simp [Function.comp_def]

theorem text_chars (name : String) :
    (text name).toList = ['%', '('] ++ name.toList ++ [')', 's'] := by
  simp [text]

theorem placeholderAt?_some (h : placeholderAt? ps = some (name, size)) :
    isName name = true ∧ ∃ rest, ps.map Prod.fst = (text name).toList ++ rest ∧
      size = (text name).toList.length := by
  unfold placeholderAt? at h
  split at h
  · rw [text_chars]
    exact nameBetween_some h
  · cases h

theorem cuts_split (cs : List Char) : Cuts placeholderAt? (places cs) (split cs) := by
  refine cuts_segments (fun ps name size h => ?_) _
  obtain ⟨-, rest, chars, rfl⟩ := placeholderAt?_some h
  have lengths := congrArg List.length chars
  rw [text_chars] at lengths ⊢
  simp only [List.length_map, List.length_append, List.length_cons, List.length_nil] at lengths ⊢
  omega

/-- A text is written again from its segments. -/
theorem write_text (h : Cuts placeholderAt? ps segs) :
    segs.flatMap (write text) = ps.map Prod.fst := by
  induction h with
  | nil => rfl
  | plain _ _ ih => rw [List.flatMap_cons, ih]; rfl
  | @found w rest name more _ occurs _ ih =>
      obtain ⟨-, after, chars, length⟩ := placeholderAt?_some occurs
      rw [List.map_append] at chars ⊢
      have own := (List.append_inj chars (by simpa using length)).1
      rw [List.flatMap_cons, ih, own]
      rfl

/-! ### Sentinels -/

theorem sentinel_chars (name : String) : (sentinel name).toList =
    '\'' :: sentinelMark.toList ++ name.toList ++ ['\''] := by
  simp [sentinel]

theorem sentinelAt?_sentinel (hn : isName name = true) (rest : List Char) :
    sentinelAt? ((sentinel name).toList ++ rest) = some (name, (sentinel name).toList.length) := by
  rw [sentinel_chars]
  refine nameBetween_name hn ?_
  rintro _ ⟨⟩
  decide

/-- A segment of a masked text. -/
def masked : Segment String Place → Segment String Char
  | .plain (c, _) => .plain c
  | .found name => .found name

/-- Text without quotes that comes first in a masked text comes first in the text itself. -/
theorem prefix_of_masked {p : List Char} (hp : '\'' ∉ p) (h : p <+: segs.flatMap (write sentinel)) :
    p <+: segs.flatMap (write text) := by
  induction segs generalizing p with
  | nil => exact h
  | cons segment segs ih =>
      cases p with
      | nil => exact List.nil_prefix
      | cons d p =>
          simp only [List.mem_cons, not_or] at hp
          rw [List.flatMap_cons] at h ⊢
          cases segment with
          | plain place =>
              obtain ⟨c, start⟩ := place
              simp only [write, List.singleton_append, List.cons_prefix_cons] at h ⊢
              exact ⟨h.1, ih hp.2 h.2⟩
          | found name =>
              rw [write, sentinel_chars] at h
              exact absurd (List.cons_prefix_cons.mp h).1.symm hp.1

/-- The sentinels of a masked text stand where its placeholders were. -/
theorem cuts_masked (h : Cuts placeholderAt? ps segs)
    (unmarked : ¬ sentinelMark.toList <:+: segs.flatMap (write text)) :
    Cuts sentinelAt? (segs.flatMap (write sentinel)) (segs.map masked) := by
  induction h with
  | nil => exact .nil
  | @plain place rest more none _ ih =>
      obtain ⟨c, start⟩ := place
      rw [List.flatMap_cons] at unmarked ⊢
      have later : ¬ sentinelMark.toList <:+: more.flatMap (write text) := fun marked =>
        unmarked (marked.trans (List.suffix_append _ _).isInfix)
      refine .plain ?_ (ih later)
      refine Option.eq_none_iff_forall_ne_some.mpr fun ⟨name, size⟩ occurs => ?_
      obtain ⟨-, after, chars, -⟩ := nameBetween_some occurs
      -- The mark would stand after a quote of the text itself.
      have marked : sentinelMark.toList <+: more.flatMap (write sentinel) :=
        ⟨name.toList ++ ['\''] ++ after, by simpa using (List.cons.inj chars).2.symm⟩
      have noQuote : '\'' ∉ sentinelMark.toList := by decide
      exact later (prefix_of_masked noQuote marked).isInfix
  | @found w rest name more _ occurs _ ih =>
      obtain ⟨named, -⟩ := placeholderAt?_some occurs
      rw [List.flatMap_cons] at unmarked ⊢
      have later : ¬ sentinelMark.toList <:+: more.flatMap (write text) := fun marked =>
        unmarked (marked.trans (List.suffix_append _ _).isInfix)
      exact .found (by rw [write, sentinel_chars]; nofun) (sentinelAt?_sentinel named _) (ih later)

theorem foundValues_masked (segs : List (Segment String Place)) :
    foundValues (segs.map masked) = foundValues segs := by
  rw [foundValues, foundValues, List.filterMap_map]
  congr 1
  funext segment
  cases segment <;> rfl

theorem maskChars_eq (cs : List Char) : maskChars cs = (split cs).flatMap (write sentinel) := by
  unfold maskChars
  congr 1

theorem toList_mask (s : String) : (mask s).toList = (split s.toList).flatMap (write sentinel) := by
  rw [mask, String.toList_ofList, maskChars_eq]

theorem write_split (cs : List Char) : (split cs).flatMap (write text) = cs := by
  rw [write_text (cuts_split cs), map_fst_places]

/-- In a text without the mark of sentinels, the sentinels of the masked text are the placeholders
of the text. -/
theorem segments_mask (h : Unmarked s) :
    segments sentinelAt? (mask s).toList = (split s.toList).map masked := by
  rw [toList_mask]
  exact segments_eq_of_cuts (cuts_masked (cuts_split _) (by rwa [write_split]))

/-- A text without the mark of sentinels is unmasked to itself, and its masked text mentions the
names of its placeholders. -/
theorem unmask_mask (h : Unmarked s) :
    unmask (mask s) = s ∧ ∀ name, mentions (mask s) name = true ↔ name ∈ names s := by
  constructor
  · have unmasked : unmaskChars (mask s).toList = (split s.toList).flatMap (write text) := by
      rw [unmaskChars, segments_mask h, List.flatMap_map]
      congr 1
      funext segment
      cases segment <;> rfl
    rw [unmask, unmasked, write_split, String.ofList_toList]
  · intro name
    rw [mentions, segments_mask h, foundValues_masked, List.contains_iff_mem, names,
      Text.mem_sortedSet]

/-- Placeholders that share a quote once they are masked, next to text that only looks like one. -/
theorem unmask_mask_shared :
    unmask (mask "%(a)s%(b)s '%(c)s' -- %(d)s") = "%(a)s%(b)s '%(c)s' -- %(d)s" ∧
      ∀ name, mentions (mask "%(a)s%(b)s '%(c)s' -- %(d)s") name = true ↔
        name ∈ names "%(a)s%(b)s '%(c)s' -- %(d)s" :=
  unmask_mask (by decide +kernel)

end ReportSql.Sql.Placeholder
