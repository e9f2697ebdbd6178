import Mathlib.Data.List.Sort
import Mathlib.Data.Prod.Lex

/-! Listings of rows in the order of a key, cut at a limit. -/
namespace RowListing

variable {ρ κ : Type} [LinearOrder κ] (key : ρ → κ)

def orderBy (rows : List ρ) : List ρ := rows.insertionSort fun a b => key a ≤ key b

def page (rows : List ρ) (limit offset : Nat) : List ρ :=
  ((orderBy key rows).drop offset).take limit

def rank (rows : List ρ) (x : ρ) : Nat := rows.countP fun a => key a < key x

variable {rows : List ρ}

theorem mem_orderBy {x : ρ} : x ∈ orderBy key rows ↔ x ∈ rows :=
  (rows.perm_insertionSort _).mem_iff

theorem rank_orderBy (rows : List ρ) (x : ρ) : rank key (orderBy key rows) x = rank key rows x :=
  (rows.perm_insertionSort _).countP_eq _

theorem strict_orderBy (h : (rows.map key).Nodup) :
    (orderBy key rows).Pairwise fun a b => key a < key b := by
  have hle : (orderBy key rows).Pairwise fun a b => key a ≤ key b :=
    rows.pairwise_insertionSort fun a b => key a ≤ key b
  have hperm : ((orderBy key rows).map key).Perm (rows.map key) :=
    (rows.perm_insertionSort _).map key
  have hne : (orderBy key rows).Pairwise fun a b => key a ≠ key b :=
    List.pairwise_map.mp (hperm.nodup_iff.mpr h)
  exact (hle.and hne).imp fun hab => lt_of_le_of_ne hab.1 hab.2

theorem mem_take_of_strict (h : rows.Pairwise fun a b => key a < key b) {x : ρ} {n : Nat} :
    x ∈ rows.take n ↔ x ∈ rows ∧ rank key rows x < n := by
  induction rows generalizing n with
  | nil => simp
  | cons a rest ih =>
    obtain ⟨hfirst, hrest⟩ := List.pairwise_cons.mp h
    cases n with
    | zero => simp
    | succ n =>
      rw [List.take_succ_cons, List.mem_cons, ih hrest, List.mem_cons]
      by_cases hx : x ∈ rest
      · have hlt : key a < key x := hfirst x hx
        have hrank : rank key (a :: rest) x = rank key rest x + 1 := by
          simp [rank, hlt]
        have hne : x ≠ a := by
          rintro rfl
          exact lt_irrefl _ hlt
        rw [hrank]
        simp only [hx, hne, false_or, true_and, or_true]
        omega
      · simp only [hx, false_and, or_false]
        constructor
        · rintro rfl
          -- nothing in the list comes before its first row
          have hnone : rank key (x :: rest) x = 0 := by
            rw [rank, List.countP_eq_zero]
            intro b hb
            rcases List.mem_cons.mp hb with rfl | hb
            · simp
            · simpa using (hfirst b hb).le
          exact ⟨rfl, by omega⟩
        · exact fun hx => hx.1

theorem mem_page (h : (rows.map key).Nodup) {x : ρ} {limit : Nat} :
    x ∈ page key rows limit 0 ↔ x ∈ rows ∧ rank key rows x < limit := by
  rw [page, List.drop_zero, mem_take_of_strict key (strict_orderBy key h), mem_orderBy,
    rank_orderBy]

end RowListing
