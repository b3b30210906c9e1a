import Chronometry.Statistics
import Mathlib.Algebra.Order.BigOperators.Group.List
import Mathlib.Algebra.Order.Field.Rat
import Mathlib.Data.List.Induction
import Mathlib.Tactic.FieldSimp
import Mathlib.Tactic.LinearCombination
import Mathlib.Tactic.Positivity
import Mathlib.Tactic.Ring

/-! The running statistics in exact numbers. Main statement: the recurrence gives the least and the
greatest sample, the mean, and the sum of the squared distances to it, in whichever order the samples
come. -/
namespace Chronometry.Statistics

instance : Scalar ℚ ℕ where
  zero := 0
  ofCount n := n
  less a b := decide (a < b)

/-- What a finished stream tells, before the root is taken of the variance. -/
structure Moments (α κ : Type) where
  count : κ
  min : Option α
  max : Option α
  mean : α
  variance : α

def Stream.moments? {α κ : Type} [Scalar α κ] [∀ n, OfNat κ n] [Add κ] [Sub κ] [LT κ] [DecidableLT κ]
    [DecidableEq κ] (s : Stream α κ) : Option (Moments α κ) :=
  if s.isEmpty then none else some ⟨s.count, s.least, s.greatest, s.mean, s.variance⟩

/-- In binary64 the root of the variance is all that the summary adds. -/
theorem Stream.summary_eq (s : Samples) : s.summary = match s.moments? with
    | some m =>
      .ok ⟨m.count, m.min.getD infinity, m.max.getD (-infinity), m.mean, m.variance.sqrt⟩
    | none => .error .empty := by
  unfold summary moments?
  cases s.isEmpty <;> rfl

def squares (xs : List ℚ) (point : ℚ) : ℚ := (xs.map fun x => (x - point) ^ 2).sum

theorem squares_concat (xs : List ℚ) (x point : ℚ) :
    squares (xs ++ [x]) point = squares xs point + (x - point) ^ 2 := by
  simp [squares]

theorem squares_nonneg (xs : List ℚ) (point : ℚ) : 0 ≤ squares xs point := by
  apply List.sum_nonneg
  intro y hy
  obtain ⟨x, -, rfl⟩ := List.mem_map.1 hy
  exact sq_nonneg _

/-- Moving the point away from the mean adds the square of the way for each number. -/
theorem squares_eq (xs : List ℚ) {mean : ℚ} (hmean : mean * xs.length = xs.sum) (point : ℚ) :
    squares xs point = squares xs mean + xs.length * (mean - point) ^ 2 := by
  -- Both sides are the same polynomial in the point once the sum is multiplied out.
  have hexpand : ∀ point, squares xs point =
      (xs.map (· ^ 2)).sum - 2 * point * xs.sum + xs.length * point ^ 2 := by
    intro point
    clear hmean
    induction xs with
    | nil => simp [squares]
    | cons x xs ih =>
      have hcons : squares (x :: xs) point = (x - point) ^ 2 + squares xs point := by simp [squares]
      rw [hcons, ih, List.map_cons, List.sum_cons, List.sum_cons, List.length_cons]
      push_cast
      ring
  rw [hexpand point, hexpand mean, ← hmean]
  ring

section Extremes

theorem lower_some (least x : ℚ) : Stream.lower (some least) x = min least x := by
  change (if decide (least < x) = true then least else x) = _
  by_cases h : least < x
  · rw [if_pos (decide_eq_true h), min_eq_left h.le]
  · rw [if_neg (by simpa using h), min_eq_right (not_lt.1 h)]

theorem upper_some (greatest x : ℚ) : Stream.upper (some greatest) x = max greatest x := by
  change (if decide (x < greatest) = true then greatest else x) = _
  by_cases h : x < greatest
  · rw [if_pos (decide_eq_true h), max_eq_left h.le]
  · rw [if_neg (by simpa using h), max_eq_right (not_lt.1 h)]

theorem min?_concat (xs : List ℚ) (x : ℚ) : (xs ++ [x]).min? = some (Stream.lower xs.min? x) := by
  cases xs with
  | nil => rfl
  | cons y ys =>
    rw [List.cons_append, List.min?_cons', List.min?_cons', List.foldl_concat, lower_some]

theorem max?_concat (xs : List ℚ) (x : ℚ) : (xs ++ [x]).max? = some (Stream.upper xs.max? x) := by
  cases xs with
  | nil => rfl
  | cons y ys =>
    rw [List.cons_append, List.max?_cons', List.max?_cons', List.foldl_concat, upper_some]

end Extremes

/-- A stream holds the true statistics of some samples. -/
structure Stream.Describes (s : Stream ℚ ℕ) (xs : List ℚ) : Prop where
  count : s.count = xs.length
  least : s.least = xs.min?
  greatest : s.greatest = xs.max?
  mean : s.mean = xs.sum / xs.length
  spread : s.spread = squares xs s.mean

namespace Stream.Describes
variable {s : Stream ℚ ℕ} {xs ys : List ℚ}

theorem empty : (Stream.empty : Stream ℚ ℕ).Describes [] where
  count := rfl
  least := rfl
  greatest := rfl
  mean := (div_zero (0 : ℚ)).symm
  spread := rfl

theorem mean_mul (h : s.Describes xs) : s.mean * xs.length = xs.sum := by
  by_cases hxs : xs = []
  · rw [hxs, List.length_nil, Nat.cast_zero, mul_zero, List.sum_nil]
  · have hpos : (xs.length : ℚ) ≠ 0 := Nat.cast_ne_zero.2 (mt List.length_eq_zero_iff.1 hxs)
    rw [h.mean, div_mul_cancel₀ _ hpos]

theorem mean_push (h : s.Describes xs) (x : ℚ) :
    (s.push x).mean * (xs.length + 1) = (xs ++ [x]).sum := by
  have hstep : (s.push x).mean = s.mean + (x - s.mean) / (s.count + 1 : ℕ) := rfl
  have hpos : (xs.length : ℚ) + 1 ≠ 0 := by positivity
  rw [hstep, h.count, List.sum_append, List.sum_singleton, ← h.mean_mul]
  push_cast
  field_simp
  ring

/-- The old samples are as far from the new mean as the product of the two distances of the new sample
says. -/
theorem spread_push (h : s.Describes xs) (x : ℚ) :
    (s.push x).spread = squares (xs ++ [x]) (s.push x).mean := by
  have hstep : (s.push x).spread = s.spread + (x - s.mean) * (x - (s.push x).mean) := rfl
  have hmean := h.mean_push x
  rw [List.sum_append, List.sum_singleton, ← h.mean_mul] at hmean
  rw [hstep, squares_concat, squares_eq xs h.mean_mul, h.spread]
  linear_combination (s.mean - (s.push x).mean) * hmean

theorem push (h : s.Describes xs) (x : ℚ) : (s.push x).Describes (xs ++ [x]) where
  count := by
    have hstep : (s.push x).count = s.count + 1 := rfl
    rw [hstep, h.count, List.length_append, List.length_singleton]
  least := by
    have hstep : (s.push x).least = some (lower s.least x) := rfl
    rw [hstep, h.least, min?_concat]
  greatest := by
    have hstep : (s.push x).greatest = some (upper s.greatest x) := rfl
    rw [hstep, h.greatest, max?_concat]
  mean := by
    have hlength : ((xs ++ [x]).length : ℚ) = xs.length + 1 := by simp
    rw [hlength, ← h.mean_push x, mul_div_cancel_right₀ _ (by positivity)]
  spread := h.spread_push x

theorem foldl_push (xs : List ℚ) : Describes (xs.foldl Stream.push .empty) xs := by
  induction xs using List.reverseRecOn with
  | nil => exact empty
  | append_singleton xs x ih =>
    rw [List.foldl_concat]
    exact ih.push x

/-- The true statistics do not depend on the order of the samples. -/
theorem eq_of_perm {t : Stream ℚ ℕ} (hs : s.Describes xs) (ht : t.Describes ys) (h : xs.Perm ys) :
    s = t := by
  have hmin : xs.min? = ys.min? := by
    ext a
    simp only [List.min?_eq_some_iff, h.mem_iff]
  have hmax : xs.max? = ys.max? := by
    ext a
    simp only [List.max?_eq_some_iff, h.mem_iff]
  have hmean : s.mean = t.mean := by rw [hs.mean, ht.mean, h.sum_eq, h.length_eq]
  have hspread : s.spread = t.spread := by
    rw [hs.spread, ht.spread, hmean]
    exact (h.map _).sum_eq
  have hcount : s.count = t.count := by rw [hs.count, ht.count, h.length_eq]
  have hleast : s.least = t.least := by rw [hs.least, ht.least, hmin]
  have hgreatest : s.greatest = t.greatest := by rw [hs.greatest, ht.greatest, hmax]
  exact Stream.ext hcount hleast hgreatest hmean hspread

theorem variance_eq (h : s.Describes xs) : s.variance =
    if xs.length < 2 then 0 else squares xs (xs.sum / xs.length) / (xs.length - 1 : ℕ) := by
  rw [← h.mean, ← h.spread, ← h.count]
  rfl

theorem variance_nonneg (h : s.Describes xs) : 0 ≤ s.variance := by
  rw [h.variance_eq]
  split
  · exact le_rfl
  · exact div_nonneg (squares_nonneg _ _) (Nat.cast_nonneg _)

theorem least_le_mean (h : s.Describes xs) {least : ℚ} (hleast : xs.min? = some least) :
    least ≤ s.mean := by
  obtain ⟨hmem, hle⟩ := List.min?_eq_some_iff.1 hleast
  have hpos : (0 : ℚ) < xs.length := Nat.cast_pos.2 (List.length_pos_of_mem hmem)
  have hsum := xs.card_nsmul_le_sum least hle
  rw [nsmul_eq_mul, ← h.mean_mul, mul_comm] at hsum
  exact le_of_mul_le_mul_right hsum hpos

theorem mean_le_greatest (h : s.Describes xs) {greatest : ℚ} (hgreatest : xs.max? = some greatest) :
    s.mean ≤ greatest := by
  obtain ⟨hmem, hle⟩ := List.max?_eq_some_iff.1 hgreatest
  have hpos : (0 : ℚ) < xs.length := Nat.cast_pos.2 (List.length_pos_of_mem hmem)
  have hsum := xs.sum_le_card_nsmul greatest hle
  rw [nsmul_eq_mul, ← h.mean_mul, mul_comm (xs.length : ℚ)] at hsum
  exact le_of_mul_le_mul_right hsum hpos

end Stream.Describes

/-- The recurrence in exact numbers, for samples in any order: it counts them, finds the least and the
greatest, and ends with the mean and with the squared distances to it, of which the variance is the
share of one sample less. In binary64 the summary is made of the same parts. -/
theorem foldl_push_exact (xs : List ℚ) (hne : xs ≠ []) :
    let s : Stream ℚ ℕ := xs.foldl Stream.push .empty
    let n : ℚ := xs.length
    let avg := xs.sum / n
    let m2 := (xs.map fun x => (x - avg) ^ 2).sum
    let var := if xs.length = 1 then 0 else m2 / (n - 1)
    (∃ lo hi, IsLeast {x | x ∈ xs} lo ∧ IsGreatest {x | x ∈ xs} hi ∧
      s = ⟨xs.length, some lo, some hi, avg, m2⟩ ∧
      s.moments? = some ⟨xs.length, some lo, some hi, avg, var⟩ ∧
      0 ≤ var ∧ lo ≤ avg ∧ avg ≤ hi) ∧
    (∀ ys : List ℚ, ys.Perm xs → ys.foldl Stream.push .empty = s) ∧
    ∀ f : Samples, f.summary = match f.moments? with
      | some m =>
        .ok ⟨m.count, m.min.getD infinity, m.max.getD (-infinity), m.mean, m.variance.sqrt⟩
      | none => .error .empty := by
  intro s n avg m2 var
  have hs : s.Describes xs := .foldl_push xs
  obtain ⟨lo, hlo⟩ := Option.ne_none_iff_exists'.1 (mt List.min?_eq_none_iff.1 hne)
  obtain ⟨hi, hhi⟩ := Option.ne_none_iff_exists'.1 (mt List.max?_eq_none_iff.1 hne)
  have hleast : s.least = some lo := hs.least.trans hlo
  have hgreatest : s.greatest = some hi := hs.greatest.trans hhi
  have hmean : s.mean = avg := hs.mean
  have hspread : s.spread = m2 := by
    rw [hs.spread, hmean]
    rfl
  have hlength : 0 < xs.length := List.length_pos_iff.2 hne
  have hcount : ¬ s.isEmpty = true := by
    rw [Stream.isEmpty, hs.count, beq_iff_eq]
    omega
  have hvariance : s.variance = var := by
    rw [hs.variance_eq]
    by_cases hone : xs.length = 1
    · rw [if_pos (by omega), show var = 0 from if_pos hone]
    · rw [if_neg (by omega), show var = _ from if_neg hone, Nat.cast_pred hlength]
      rfl
  refine ⟨⟨lo, hi, List.min?_eq_some_iff.1 hlo, List.max?_eq_some_iff.1 hhi, ?_, ?_, ?_, ?_, ?_⟩, ?_,
    Stream.summary_eq⟩
  · exact Stream.ext hs.count hleast hgreatest hmean hspread
  · rw [Stream.moments?, if_neg hcount, hleast, hgreatest, hs.count, hmean, hvariance]
  · exact hvariance ▸ hs.variance_nonneg
  · exact hmean ▸ hs.least_le_mean hlo
  · exact hmean ▸ hs.mean_le_greatest hhi
  · intro ys hys
    exact (Stream.Describes.foldl_push ys).eq_of_perm hs hys

/-- Samples with a repetition, one of them negative, and the same samples backwards. -/
theorem foldl_push_exact_repeated :
    let xs : List ℚ := [3, 1 / 2, 3, -5 / 2]
    let s : Stream ℚ ℕ := xs.foldl Stream.push .empty
    xs ≠ [] ∧ s.moments? = some ⟨4, some (-5 / 2), some 3, 1, 41 / 6⟩ ∧ xs.reverse.foldl Stream.push .empty = s := by
  intro xs s
  have hne : xs ≠ [] := List.cons_ne_nil _ _
  have hlo : IsLeast {x | x ∈ xs} (-5 / 2) := List.min?_eq_some_iff.1 (by decide +kernel)
  have hhi : IsGreatest {x | x ∈ xs} 3 := List.max?_eq_some_iff.1 (by decide +kernel)
  obtain ⟨⟨lo, hi, hleast, hgreatest, -, hmoments, -⟩, hperm, -⟩ := foldl_push_exact xs hne
  rw [hleast.unique hlo, hgreatest.unique hhi] at hmoments
  refine ⟨hne, hmoments.trans ?_, hperm _ xs.reverse_perm⟩
  norm_num [xs]

end Chronometry.Statistics
