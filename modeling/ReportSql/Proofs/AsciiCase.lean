import ReportSql.Output.Quoting
import ReportSql.Proofs.Lexemes
import ReportSql.Text.Casing

/-!
Upper and lower case of names in ASCII, and the keywords that a name without quotes can spell.
-/
namespace ReportSql.Text

/-- Whether a text is in ASCII. -/
def IsAscii (s : String) : Prop := ∀ c ∈ s.toList, c.toNat < 128

theorem upper_of_ascii {s : String} (h : IsAscii s) : upper s = asciiUpper s := by
  have chars : ∀ cs : List Char, (∀ c ∈ cs, c.toNat < 128) →
      upperChars cs = cs.map Char.toUpper := by
    intro cs hcs
    induction cs with
    | nil => rfl
    | cons c cs ih =>
        have own : upperOf c = [c.toUpper] := if_pos (hcs c (by simp))
        have more := ih fun d hd => hcs d (List.mem_cons_of_mem _ hd)
        simp only [upperChars, List.flatMap_cons, own, List.map_cons, List.singleton_append]
        exact congrArg _ more
  rw [upper, chars _ h, asciiUpper]

theorem lower_of_ascii {s : String} (h : IsAscii s) : lower s = asciiLower s := by
  have chars : ∀ (cs before : List Char), (∀ c ∈ cs, c.toNat < 128) →
      lowerAfter before cs = cs.map Char.toLower := by
    intro cs
    induction cs with
    | nil => intros; rfl
    | cons c cs ih =>
        intro before hcs
        have small := hcs c (by simp)
        have own : lowerOf c = [c.toLower] := if_pos small
        have sigma : (c.toNat == 0x3A3) = false := beq_false_of_ne (by omega)
        have more := ih (c :: before) fun d hd => hcs d (List.mem_cons_of_mem _ hd)
        simp [lowerAfter, own, sigma, more]
  rw [lower, lowerChars, chars _ _ h, asciiLower]

/-- Whether a text is made of ASCII capitals and underscores, as the keywords are. -/
def isCapital (s : String) : Bool := s.toList.all fun c => c.isUpper || c == '_'

theorem upper_of_capital {s : String} (h : isCapital s = true) : upper s = s := by
  have small : ∀ c : Char, (c.isUpper || c == '_') = true → c.toNat < 128 ∧ c.toUpper = c := by
    intro c hc
    have bound : c.toNat < 128 := by
      simp only [Sql.isUpper_eq, Bool.or_eq_true, decide_eq_true_eq, beq_iff_eq] at hc
      rcases hc with ⟨-, hc⟩ | rfl
      · exact Nat.lt_of_le_of_lt (show c.val.toNat ≤ 90 from hc) (by decide)
      · decide
    exact ⟨bound, @Sql.ascii_induction (fun c => (c.isUpper || c == '_') = true → c.toUpper = c)
      (by decide) c bound hc⟩
  have chars := List.all_eq_true.mp h
  rw [upper_of_ascii fun c hc => (small c (chars c hc)).1, asciiUpper,
    List.map_congr_left fun c hc => (small c (chars c hc)).2, List.map_id', String.ofList_toList]

end ReportSql.Text

namespace ReportSql.Output

open Text (IsAscii asciiLower asciiUpper)

theorem bareName_chars {name : String} (h : isBareName name = true) :
    ∀ c ∈ name.toList, continuesBareName c = true := by
  unfold isBareName at h
  split at h
  · next c rest cons =>
    simp only [Bool.and_eq_true, List.all_eq_true] at h
    rw [cons]
    intro d hd
    rcases List.mem_cons.mp hd with rfl | hd
    · have := h.1
      simp only [startsBareName, continuesBareName, Bool.or_eq_true] at this ⊢
      exact this.imp_left .inl
    · exact h.2 d hd
  · cases h

theorem bareChar_lt {c : Char} (h : continuesBareName c = true) : c.toNat < 128 := by
  refine Sql.plainPart_lt ?_
  simp only [continuesBareName, Sql.Placeholder.isNamePart, Char.isAlphanum, Sql.isAlpha_eq,
    Bool.or_eq_true] at h ⊢
  exact h.imp_left (Or.imp_left .inr)

theorem bareName_ascii {name : String} (h : isBareName name = true) : IsAscii name :=
  fun c hc => bareChar_lt (bareName_chars h c hc)

/-- A name without capitals is its own lower case. -/
theorem lower_bareName {name : String} (h : isBareName name = true) : Text.lower name = name := by
  have own : ∀ c ∈ name.toList, c.toLower = c := fun c hc =>
    @Sql.ascii_induction (fun c => continuesBareName c = true → c.toLower = c) (by decide) c
      (bareName_ascii h c hc) (bareName_chars h c hc)
  rw [Text.lower_of_ascii (bareName_ascii h), asciiLower, List.map_congr_left own, List.map_id',
    String.ofList_toList]

theorem lower_upper_bareName {name : String} (h : isBareName name = true) :
    Text.lower (Text.upper name) = name := by
  have back : ∀ c ∈ name.toList, (Char.toLower ∘ Char.toUpper) c = id c := fun c hc =>
    @Sql.ascii_induction (fun c => continuesBareName c = true → c.toUpper.toLower = c)
      (by decide) c (bareName_ascii h c hc) (bareName_chars h c hc)
  have small : ∀ c ∈ name.toList, c.toUpper.toNat < 128 := fun c hc =>
    @Sql.ascii_induction (fun c => c.toUpper.toNat < 128) (by decide) c (bareName_ascii h c hc)
  have ascii : IsAscii (asciiUpper name) := by
    intro c hc
    simp only [asciiUpper, String.toList_ofList, List.mem_map] at hc
    obtain ⟨d, hd, rfl⟩ := hc
    exact small d hd
  rw [Text.upper_of_ascii (bareName_ascii h), Text.lower_of_ascii ascii, asciiLower, asciiUpper,
    String.toList_ofList, List.map_map, List.map_congr_left back, List.map_id,
    String.ofList_toList]

/-- A name that is written without quotes spells no keyword that is reserved. -/
theorem upper_ne_of_reserved {name k : String} (hn : isBareName name = true)
    (hr : isReserved name = false) (hk : isReserved (Text.lower k) = true) :
    Text.upper name ≠ k := by
  rintro rfl
  rw [lower_upper_bareName hn, hr] at hk
  cases hk

end ReportSql.Output
