import Chronometry.Proofs.ClockTime
import Mathlib.Algebra.Order.Field.Rat
import Mathlib.Tactic.Linarith
import Mathlib.Tactic.Positivity
import Mathlib.Tactic.Ring

/-! How far the estimate of a calibration is from the rate of the counter, on a simulated clock. -/
namespace Chronometry

def Bench.timerReads (b : Bench) : Nat := b.reads.count .timer

theorem estimateFrequency_mul_le (frequency counter timer : UInt64) :
    (estimateFrequency frequency counter timer).toNat * timer.toNat ≤
      frequency.toNat * counter.toNat := by
  unfold estimateFrequency
  split_ifs with ht
  · simp
  · rw [Word.toNat_clamp]
    calc
      min (frequency.toNat * counter.toNat / timer.toNat) Word.maxNat * timer.toNat ≤
          frequency.toNat * counter.toNat / timer.toNat * timer.toNat :=
        Nat.mul_le_mul_right _ (Nat.min_le_left _ _)
      _ ≤ frequency.toNat * counter.toNat := Nat.div_mul_le_self _ _

/-- The quotient loses less than one, unless the estimate is cut at the largest word. -/
theorem lt_estimateFrequency_mul_add (frequency counter : UInt64) {timer : UInt64} (ht : timer ≠ 0) :
    (estimateFrequency frequency counter timer).toNat = Word.maxNat ∨
      frequency.toNat * counter.toNat <
        (estimateFrequency frequency counter timer).toNat * timer.toNat + timer.toNat := by
  have hpos : 0 < timer.toNat := Nat.pos_of_ne_zero (fun h => ht (UInt64.toNat_inj.1 h))
  rw [estimateFrequency, if_neg ht, Word.toNat_clamp]
  rcases Nat.le_total (frequency.toNat * counter.toNat / timer.toNat) Word.maxNat with h | h
  · right
    rw [Nat.min_eq_left h]
    exact Nat.lt_div_mul_add hpos
  · left
    exact Nat.min_eq_right h

/-- Two counts of ticks over one time, each off by less than a tick, multiplied crosswise by their rates. -/
theorem cross_lt {p q time x y unit : Nat} (hpos : 0 < p + q) (hx : x * unit < time * q + unit)
    (hy : time * p < y * unit + unit) : p * x < q * y + p + q := by
  rcases Nat.eq_zero_or_pos p with rfl | hp
  · omega
  · apply Nat.lt_of_mul_lt_mul_right (a := unit)
    calc
      p * x * unit = p * (x * unit) := Nat.mul_assoc _ _ _
      _ < p * (time * q + unit) := Nat.mul_lt_mul_of_pos_left hx hp
      _ = q * (time * p) + p * unit := by ring
      _ ≤ q * (y * unit + unit) + p * unit := by gcongr
      _ = (q * y + p + q) * unit := by ring

theorem estimateFrequency_error_of_cross {frequency rate counter timer : UInt64} {slack : Nat}
    (ht : timer ≠ 0)
    (hupper : frequency.toNat * counter.toNat < rate.toNat * timer.toNat + slack)
    (hlower : rate.toNat * timer.toNat < frequency.toNat * counter.toNat + slack) :
    (estimateFrequency frequency counter timer).toNat * timer.toNat < rate.toNat * timer.toNat + slack ∧
      rate.toNat * timer.toNat <
        (estimateFrequency frequency counter timer).toNat * timer.toNat + slack + timer.toNat := by
  constructor
  · exact (estimateFrequency_mul_le _ _ _).trans_lt hupper
  · rcases lt_estimateFrequency_mul_add frequency counter ht with h | h
    · -- An estimate that is cut is at least the rate.
      have hrate : rate.toNat ≤ (estimateFrequency frequency counter timer).toNat := by
        have := rate.toNat_lt
        rw [h, Word.maxNat]
        omega
      have hpos : 0 < timer.toNat := Nat.pos_of_ne_zero fun hz => ht (UInt64.toNat_inj.1 hz)
      have := Nat.mul_le_mul_right timer.toNat hrate
      omega
    · omega

theorem estimateFrequency_error {frequency rate counter timer : UInt64} {time unit : Nat}
    (hf : frequency ≠ 0) (ht : timer ≠ 0)
    (hc : counter.toNat * unit < time * rate.toNat + unit ∧
      time * rate.toNat < counter.toNat * unit + unit)
    (htm : timer.toNat * unit < time * frequency.toNat + unit ∧
      time * frequency.toNat < timer.toNat * unit + unit) :
    (estimateFrequency frequency counter timer).toNat * timer.toNat <
        rate.toNat * timer.toNat + frequency.toNat + rate.toNat ∧
      rate.toNat * timer.toNat <
        (estimateFrequency frequency counter timer).toNat * timer.toNat + frequency.toNat +
          rate.toNat + timer.toNat := by
  have hfpos : 0 < frequency.toNat := Nat.pos_of_ne_zero (fun h => hf (UInt64.toNat_inj.1 h))
  have hupper : frequency.toNat * counter.toNat <
      rate.toNat * timer.toNat + (frequency.toNat + rate.toNat) := by
    have := cross_lt (by omega) hc.1 htm.2
    omega
  have hlower : rate.toNat * timer.toNat <
      frequency.toNat * counter.toNat + (frequency.toNat + rate.toNat) := by
    have := cross_lt (by omega) htm.1 hc.2
    omega
  have herror := estimateFrequency_error_of_cross ht hupper hlower
  omega

theorem abs_sub_lt_of_mul_lt {f rate timer slack : Nat} (ht : 0 < timer)
    (hupper : f * timer < rate * timer + slack) (hlower : rate * timer < f * timer + slack + timer) :
    |(f : ℚ) - rate| < slack / timer + 1 := by
  have htq : (0 : ℚ) < timer := by exact_mod_cast ht
  have hu : (f : ℚ) * timer < rate * timer + slack := by exact_mod_cast hupper
  have hl : (rate : ℚ) * timer < f * timer + slack + timer := by exact_mod_cast hlower
  have hs : (slack : ℚ) / timer * timer = slack := div_mul_cancel₀ _ htq.ne'
  rw [abs_lt]
  constructor <;> apply lt_of_mul_lt_mul_right _ htq.le <;> nlinarith

namespace Clock

/-- The readings of a calibration on a clock: the last pair comes `k` timer readings after the first,
and the counter is read at the times of the timer. -/
theorem calibrateFor_eq_ok {c : Clock} {waitMs : UInt64} {r : Calibration} {b : Bench}
    (hrun : (calibrateFor waitMs : Trial Calibration) (.ofSource (.clock c)) = (.ok r, b)) :
    ∃ k, b.source = .clock (c.advance (.ofNat (k + 1) * c.step)) ∧ b.timerReads = k + 1 ∧
      waitTicks c.frequency waitMs ≤ r.timerElapsed ∧
      r = .ofSpans c.frequency
        ⟨scale (c.now + .ofNat 1 * c.step) c.frequency,
          scale (c.now + .ofNat (k + 1) * c.step) c.frequency⟩
        ⟨scale (c.now + .ofNat 1 * c.step) c.rate,
          scale (c.now + .ofNat (k + 1) * c.step) c.rate⟩ := by
  obtain ⟨start, first, last, final, k, hstart, hfirst, ⟨hread, hreached, -⟩, hfinal, hr, hb⟩ :=
    calibrateFor_eq_ok_iff.1 hrun
  rw [Source.latest_afterTimers hstart start] at hread
  refine ⟨k, ?_, ?_, ?_, ?_⟩
  · rw [hb]; rfl
  · simp [hb, Bench.timerReads, Bench.ofSource]
    omega
  · rw [hr]; exact hreached
  · rw [hr, ← Option.some.inj hstart, ← Option.some.inj hfirst, ← Option.some.inj hread,
      ← Option.some.inj hfinal]
    rfl

end Clock

/-- On a clock that does not wrap and whose readings are not cut, the estimate of a wait of at least
one tick is off by less than `(F + R) / E + 1`, where `E` ticks of the timer have passed. The bound
depends neither on the time at which the calibration starts nor on the step of the clock. -/
theorem calibrate_accuracy {c : Clock} {waitMs : UInt64} {r : Calibration} {b : Bench} {t : Nat}
    (hwait : 1 ≤ waitTicks c.frequency waitMs)
    (hrun : (calibrate waitMs : Trial _) (.ofSource (.clock c)) = (.ok (.ok r), b))
    (ht : t = c.now.toNat + b.timerReads * c.step.toNat) (htime : t < 2 ^ 64)
    (htimer : t * c.frequency.toNat / 10 ^ 9 < 2 ^ 64)
    (hcounter : t * c.rate.toNat / 10 ^ 9 < 2 ^ 64) :
    b.source = .clock { c with now := .ofNat t } ∧
      waitTicks c.frequency waitMs ≤ r.timerElapsed ∧
      r.estimate.toNat * r.timerElapsed.toNat <
        c.rate.toNat * r.timerElapsed.toNat + c.frequency.toNat + c.rate.toNat ∧
      c.rate.toNat * r.timerElapsed.toNat <
        r.estimate.toNat * r.timerElapsed.toNat + c.frequency.toNat + c.rate.toNat +
          r.timerElapsed.toNat ∧
      |(r.estimate.toNat : ℚ) - c.rate.toNat| <
        (c.frequency.toNat + c.rate.toNat : ℕ) / r.timerElapsed.toNat + 1 := by
  obtain ⟨r', hfor, hr⟩ : ∃ r', (calibrateFor waitMs : Trial _) (.ofSource (.clock c)) = (.ok r', b) ∧
      (Except.ok r' : Except Calibration.Error _) = .ok r := by
    unfold calibrate at hrun
    split_ifs at hrun
    · cases hrun
    · exact Program.map_eq_ok_iff.1 hrun
  cases hr
  obtain ⟨k, hsource, hreads, hreached, rfl⟩ := Clock.calibrateFor_eq_ok hfor
  let first := c.now + .ofNat 1 * c.step
  let last := c.now + .ofNat (k + 1) * c.step
  have htk : t = c.timeAfter (k + 1) := by rw [ht, hreads]; rfl
  have hlast : last.toNat = t := by rw [htk]; exact Clock.toNat_now_add (by omega)
  have hle : first.toNat ≤ last.toNat := by
    have hmono := c.timeAfter_mono (show 1 ≤ k + 1 by omega)
    rw [hlast, htk, Clock.toNat_now_add (by omega)]
    exact hmono
  rw [← hlast] at htimer hcounter
  have hcount := Clock.ticks_between c.rate.toNat hle
  rw [← Clock.toNat_sub_scale hle hcounter] at hcount
  have htick := Clock.ticks_between c.frequency.toNat hle
  rw [← Clock.toNat_sub_scale hle htimer] at htick
  have hone : 1 ≤ Word.sub (Clock.scale last c.frequency) (Clock.scale first c.frequency) :=
    UInt64.le_trans hwait hreached
  have helapsed : Word.sub (Clock.scale last c.frequency) (Clock.scale first c.frequency) ≠ 0 := by
    intro h
    rw [h] at hone
    exact absurd hone (by decide)
  have hfrequency : c.frequency ≠ 0 := by
    intro h
    rw [waitTicks, h, UInt64.toNat_zero, Nat.zero_mul] at hwait
    exact absurd hwait (by decide)
  obtain ⟨hupper, hlower⟩ := estimateFrequency_error hfrequency helapsed hcount htick
  refine ⟨?_, hreached, hupper, hlower, ?_⟩
  · rw [hsource, ← hlast, UInt64.ofNat_toNat]
    rfl
  · exact abs_sub_lt_of_mul_lt (UInt64.le_iff_toNat_le.1 hone) (by rwa [← Nat.add_assoc])
      (by rwa [← Nat.add_assoc])

theorem calibrate_accuracy_unaligned : ∃ b : Bench,
    (calibrate 2 : Trial _) (.ofSource (.clock ⟨1500, 7777, 700001, 123456789, none⟩)) =
      (.ok (.ok ⟨16, 3, 1500, 8000⟩), b) ∧
    b.source = .clock ⟨1500, 7777, 700001, 126256793, none⟩ ∧ (3 : UInt64) ≤ 3 ∧
    8000 * 3 < 7777 * 3 + 1500 + 7777 ∧ 7777 * 3 < 8000 * 3 + 1500 + 7777 + 3 ∧
    |((8000 : ℕ) : ℚ) - (7777 : ℕ)| < (1500 + 7777 : ℕ) / (3 : ℕ) + 1 := by
  have hrun : (calibrate 2 : Trial _) (.ofSource (.clock ⟨1500, 7777, 700001, 123456789, none⟩)) =
      (.ok (.ok ⟨16, 3, 1500, 8000⟩), _) := Program.eq_of_fst_eq (by decide +kernel)
  exact ⟨_, hrun, calibrate_accuracy (by decide) hrun (by decide +kernel) (by decide +kernel)
    (by decide +kernel) (by decide +kernel)⟩

end Chronometry
