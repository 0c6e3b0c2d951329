import Mathlib.Data.List.Forall2
import Mathlib.Data.List.Nodup

/-!
Lists of what stands at places. A place is told by the way to it from the whole, part by part, so
that equal things at two places are told apart.
-/
namespace ReportSql

/-- The number of the part to go to, for each step from the whole down. -/
abbrev Address := List Nat

/-- Whether a list holds what stands at addresses, once for each address. -/
def ListsOnce {α : Type} (stands : Address → α → Prop) (xs : List α) : Prop :=
  ∃ found : List (Address × α), (found.map Prod.fst).Nodup ∧ found.map Prod.snd = xs ∧
    ∀ a x, (a, x) ∈ found ↔ stands a x

variable {α β : Type} {R S : Address → α → Prop} {xs ys : List α}

theorem ListsOnce.congr (h : ListsOnce R xs) (same : ∀ a x, R a x ↔ S a x) : ListsOnce S xs := by
  obtain ⟨found, nodup, own, mem⟩ := h
  exact ⟨found, nodup, own, fun a x => (mem a x).trans (same a x)⟩

/-- A list that is put in another order takes what it was made from with it. -/
theorem exists_perm_of_map {f : β → α} (order : xs.Perm ys) {bs : List β} (own : bs.map f = xs) :
    ∃ cs : List β, bs.Perm cs ∧ cs.map f = ys := by
  induction order generalizing bs with
  | nil => exact ⟨bs, .refl _, own⟩
  | cons x _ ih =>
      obtain ⟨b, rest, rfl, rfl, tail⟩ := List.map_eq_cons_iff.mp own
      obtain ⟨cs, moved, mapped⟩ := ih tail
      exact ⟨b :: cs, moved.cons b, by rw [List.map_cons, mapped]⟩
  | swap x y _ =>
      obtain ⟨b, rest, rfl, rfl, tail⟩ := List.map_eq_cons_iff.mp own
      obtain ⟨c, rest, rfl, rfl, rfl⟩ := List.map_eq_cons_iff.mp tail
      exact ⟨c :: b :: rest, .swap c b rest, rfl⟩
  | trans _ _ ih₁ ih₂ =>
      obtain ⟨cs, moved, mapped⟩ := ih₁ own
      obtain ⟨ds, again, last⟩ := ih₂ mapped
      exact ⟨ds, moved.trans again, last⟩

theorem ListsOnce.perm (h : ListsOnce R xs) (order : xs.Perm ys) : ListsOnce R ys := by
  obtain ⟨found, nodup, own, mem⟩ := h
  obtain ⟨moved, same, mapped⟩ := exists_perm_of_map order own
  exact ⟨moved, (same.map Prod.fst).nodup_iff.mp nodup, mapped,
    fun a x => same.mem_iff.symm.trans (mem a x)⟩

/-- The whole itself, before what stands in it. -/
theorem ListsOnce.cons (h : ListsOnce R xs) (inside : ∀ y, ¬ R [] y) (x : α) :
    ListsOnce (fun a y => (a = [] ∧ y = x) ∨ R a y) (x :: xs) := by
  obtain ⟨found, nodup, rfl, mem⟩ := h
  refine ⟨([], x) :: found, List.nodup_cons.mpr ⟨?_, nodup⟩, rfl, fun a y => ?_⟩
  · intro own
    obtain ⟨⟨_, y⟩, hy, rfl⟩ := List.mem_map.mp own
    exact inside y ((mem _ _).mp hy)
  · rw [List.mem_cons, mem, Prod.mk.injEq]

/-- What stands in the parts of a whole, part after part. -/
theorem listsOnce_parts {parts : List β} {R : β → Address → α → Prop} {f : β → List α}
    (h : ∀ b ∈ parts, ListsOnce (R b) (f b)) :
    ListsOnce (fun a x => ∃ i rest b, a = i :: rest ∧ parts[i]? = some b ∧ R b rest x)
      (parts.flatMap f) := by
  choose! found nodup own mem using h
  have inside : ∀ y ∈ parts.zipIdx, y.1 ∈ parts := fun y hy => List.fst_mem_of_mem_zipIdx hy
  refine ⟨parts.zipIdx.flatMap fun y => (found y.1).map fun z => (y.2 :: z.1, z.2), ?_, ?_, ?_⟩
  · rw [List.map_flatMap, List.nodup_flatMap]
    constructor
    · intro y hy
      have apart := (nodup y.1 (inside y hy)).map (f := (y.2 :: ·)) fun a b h => (List.cons.inj h).2
      simpa [Function.comp_def] using apart
    · have numbers : parts.zipIdx.Pairwise fun y z => y.2 ≠ z.2 := by
        rw [← List.pairwise_map, List.zipIdx_map_snd]
        exact List.nodup_range'
      refine numbers.imp fun {y z} differ => ?_
      simp only [List.disjoint_left, List.mem_map]
      rintro _ ⟨_, ⟨u, -, rfl⟩, rfl⟩ ⟨_, ⟨v, -, rfl⟩, same⟩
      exact differ (List.cons.inj same).1.symm
  · have each : ∀ y ∈ parts.zipIdx,
        ((found y.1).map fun z => ((y.2 :: z.1 : Address), z.2)).map Prod.snd = f y.1 := by
      intro y hy
      rw [← own y.1 (inside y hy), List.map_map]
      rfl
    rw [List.map_flatMap, List.flatMap_congr each]
    have split : parts.zipIdx.flatMap (fun y => f y.1) = (parts.zipIdx.map Prod.fst).flatMap f :=
      (List.flatMap_map ..).symm
    rw [split, List.zipIdx_map_fst]
  · intro a x
    simp only [List.mem_flatMap, List.mem_map, Prod.mk.injEq, Prod.exists, List.mem_zipIdx_iff_getElem?]
    constructor
    · rintro ⟨b, i, at_, rest, x, hx, rfl, rfl⟩
      exact ⟨i, rest, b, rfl, at_, (mem b (List.mem_of_getElem? at_) rest x).mp hx⟩
    · rintro ⟨i, rest, b, rfl, at_, hx⟩
      exact ⟨b, i, at_, rest, x, (mem b (List.mem_of_getElem? at_) rest x).mpr hx, rfl, rfl⟩

end ReportSql
