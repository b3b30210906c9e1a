import Chronometry.Proofs.WaitLength

/-! What a calibration on a simulated clock finds. Main statements: on a clock that passes one tick with
each timer reading it is right to the tick, from any time on; and when it finds no estimate. -/
namespace Chronometry

/-- A number of units that is off by less than one from `n` over `d` is that quotient, rounded down or up. -/
theorem eq_div_or_eq_ceilDiv {x n d : Nat} (hupper : x * d < n + d) (hlower : n < x * d + d) :
    x = n / d ∨ x = n ⌈/⌉ d := by
  have hsucc : (x + 1) * d = x * d + d := Nat.succ_mul x d
  rcases Nat.le_total (x * d) n with h | h
  · left
    exact (Nat.div_eq_of_lt_le h (by omega)).symm
  · right
    rw [Nat.ceilDiv_eq_add_pred_div]
    exact (Nat.div_eq_of_lt_le (by omega) (by omega)).symm

theorem estimateFrequency_eq_of_cross {frequency rate counter timer : UInt64} (ht : timer ≠ 0)
    (h : frequency.toNat * counter.toNat = rate.toNat * timer.toNat) :
    estimateFrequency frequency counter timer = rate := by
  have hpos : 0 < timer.toNat := Nat.pos_of_ne_zero fun hz => ht (UInt64.toNat_inj.1 hz)
  have hfits : rate.toNat ≤ Word.maxNat := Nat.le_of_lt_succ rate.toNat_lt
  apply UInt64.toNat_inj.1
  rw [estimateFrequency, if_neg ht, h, Nat.mul_div_cancel _ hpos, Word.toNat_clamp,
    Nat.min_eq_left hfits]

namespace Clock
variable {c : Clock} {target : UInt64} {j : Nat}

/-- A clock that passes exactly one tick with each timer reading. -/
def Aligned (c : Clock) : Prop := c.step.toNat * c.frequency.toNat = 10 ^ 9

namespace Aligned

theorem uncut (h : c.Aligned) (htime : c.timeAfter j < 2 ^ 64) :
    c.timeAfter j * c.frequency.toNat / 10 ^ 9 < 2 ^ 64 := by
  have hstep : 1 ≤ c.step.toNat := by
    apply Nat.pos_of_ne_zero
    intro hz
    rw [Aligned, hz, Nat.zero_mul] at h
    exact absurd h (by decide)
  have hfrequency : c.frequency.toNat ≤ 10 ^ 9 := h ▸ Nat.le_mul_of_pos_left _ hstep
  calc
    c.timeAfter j * c.frequency.toNat / 10 ^ 9 ≤ c.timeAfter j * 10 ^ 9 / 10 ^ 9 :=
      Nat.div_le_div_right (Nat.mul_le_mul_left _ hfrequency)
    _ = c.timeAfter j := Nat.mul_div_cancel _ (by decide)
    _ < 2 ^ 64 := htime

/-- Each reading is one tick after the last one, whatever the phase of the clock. -/
theorem toNat_elapsedAfter (h : c.Aligned) (htime : c.timeAfter j < 2 ^ 64) :
    (c.elapsedAfter j).toNat = j := by
  rw [Clock.toNat_elapsedAfter htime (h.uncut htime), timeAfter_mul, h]
  omega

theorem waits (h : c.Aligned) (htime : c.timeAfter target.toNat < 2 ^ 64) :
    c.Waits target target.toNat := by
  constructor
  · rw [UInt64.le_iff_toNat_le, h.toNat_elapsedAfter htime]
  · intro i hi
    rw [UInt64.lt_iff_toNat_lt, h.toNat_elapsedAfter ((c.timeAfter_mono hi.le).trans_lt htime)]
    exact hi

theorem counter_close (h : c.Aligned) (htime : c.timeAfter j < 2 ^ 64)
    (hcounter : c.timeAfter j * c.rate.toNat / 10 ^ 9 < 2 ^ 64) :
    let x := (Word.sub (c.advance (.ofNat j * c.step)).readCounter c.readCounter).toNat
    x * c.frequency.toNat < j * c.rate.toNat + c.frequency.toNat ∧
      j * c.rate.toNat < x * c.frequency.toNat + c.frequency.toNat := by
  intro x
  obtain ⟨hupper, hlower⟩ := sub_scale_after_close htime hcounter
  rw [← h] at hupper hlower
  -- What is left is the step, common to all terms.
  constructor
  · apply Nat.lt_of_mul_lt_mul_right (a := c.step.toNat)
    calc
      x * c.frequency.toNat * c.step.toNat = x * (c.step.toNat * c.frequency.toNat) := by ring
      _ < j * c.step.toNat * c.rate.toNat + c.step.toNat * c.frequency.toNat := hupper
      _ = (j * c.rate.toNat + c.frequency.toNat) * c.step.toNat := by ring
  · apply Nat.lt_of_mul_lt_mul_right (a := c.step.toNat)
    calc
      j * c.rate.toNat * c.step.toNat = j * c.step.toNat * c.rate.toNat := by ring
      _ < x * (c.step.toNat * c.frequency.toNat) + c.step.toNat * c.frequency.toNat := hlower
      _ = (x * c.frequency.toNat + c.frequency.toNat) * c.step.toNat := by ring

end Aligned

theorem rate_mul_elapsed_lt (hpos : 0 < c.frequency.toNat + c.rate.toNat)
    (htime : c.timeAfter j < 2 ^ 64) (htimer : c.timeAfter j * c.frequency.toNat / 10 ^ 9 < 2 ^ 64)
    (hcounter : c.timeAfter j * c.rate.toNat / 10 ^ 9 < 2 ^ 64) :
    c.rate.toNat * (c.elapsedAfter j).toNat < c.frequency.toNat *
      (Word.sub (c.advance (.ofNat j * c.step)).readCounter c.readCounter).toNat +
        c.rate.toNat + c.frequency.toNat := by
  exact cross_lt (by omega) (sub_scale_after_close htime htimer).1 (sub_scale_after_close htime hcounter).2

theorem aligned_ofRates {frequency : UInt64} (rate : UInt64) (h : frequency.toNat ∣ 10 ^ 9) :
    (ofRates frequency rate).Aligned := by
  have hpos : 0 < frequency.toNat := Nat.pos_of_dvd_of_pos h (by decide)
  have hne : frequency ≠ 0 := fun hz => absurd hpos (by simp [hz])
  rw [Aligned, toNat_step_ofRates rate hne (Nat.le_of_dvd (by decide) h)]
  exact Nat.div_mul_cancel h

end Clock

theorem one_le_of_waitTicks {frequency waitMs : UInt64} (h : 1 ≤ waitTicks frequency waitMs) :
    1 ≤ waitMs := by
  have hne : waitMs ≠ 0 := by
    rintro rfl
    rw [waitTicks, UInt64.toNat_zero, Nat.mul_zero] at h
    exact absurd h (by decide)
  exact UInt64.le_iff_toNat_le.2 (Nat.pos_of_ne_zero fun hz => hne (UInt64.toNat_inj.1 hz))

/-- A calibration on a clock that passes one tick with each timer reading, at any time: it makes one timer
reading for each tick of the wait and one before them, the timer passes exactly the ticks asked for, and
the counter those of its own rate, rounded down or up. If these are whole, the estimate is the rate. -/
theorem calibrate_aligned (frequency rate now waitMs : UInt64) (hdvd : frequency.toNat ∣ 10 ^ 9)
    (hwait : 1 ≤ waitTicks frequency waitMs) :
    let c := (Clock.ofRates frequency rate).advance now
    let F := frequency.toNat
    let R := rate.toNat
    let E := (waitTicks frequency waitMs).toNat
    let t := now.toNat + (E + 1) * c.step.toNat
    t < 2 ^ 64 → t * R / 10 ^ 9 < 2 ^ 64 →
      ∃ r b, (calibrate waitMs : Trial _) (.ofSource (.clock c)) = (.ok (.ok r), b) ∧
        b.source = .clock { c with now := .ofNat t } ∧
        b.timerReads = E + 1 ∧ b.reads.count .counter = 2 ∧
        r.timerElapsed = waitTicks frequency waitMs ∧
        (r.counterElapsed.toNat = E * R / F ∨ r.counterElapsed.toNat = E * R ⌈/⌉ F) ∧
        r.estimate.toNat * E < R * E + F ∧ R * E < r.estimate.toNat * E + F + E ∧
        (F ∣ E * R → r.estimate = rate) := by
  intro c F R E t htime hcounter
  let d := c.readTimer.2
  have haligned : d.Aligned := Clock.aligned_ofRates rate hdvd
  have ht : c.timeAfter (E + 1) = t := by
    change (0 + now).toNat + _ = _
    rw [UInt64.zero_add]
  have hend : d.timeAfter E = t := by
    rw [← ht] at htime ⊢
    exact Clock.timeAfter_readTimer htime
  rw [← hend] at htime hcounter
  have hne : waitTicks frequency waitMs ≠ 0 := by
    intro h
    rw [h] at hwait
    exact absurd hwait (by decide)
  have helapsed : d.elapsedAfter E = waitTicks frequency waitMs :=
    UInt64.toNat_inj.1 (haligned.toNat_elapsedAfter htime)
  let r : Calibration := .ofSpans frequency ⟨c.readTimer.1, d.reading E⟩
    ⟨d.readCounter, (d.advance (.ofNat E * c.step)).readCounter⟩
  have hrun := (Clock.calibrate_iff_waits (one_le_of_waitTicks hwait)).2
    ⟨E, haligned.waits htime, rfl, rfl⟩
  have hestimate : r.estimate =
      estimateFrequency frequency r.counterElapsed (waitTicks frequency waitMs) := by
    rw [← helapsed]
    rfl
  have hclose : r.counterElapsed.toNat * F < E * R + F ∧ E * R < r.counterElapsed.toNat * F + F :=
    haligned.counter_close htime hcounter
  have herror := estimateFrequency_error_of_cross hne
    (show F * r.counterElapsed.toNat < R * E + F by linarith)
    (show R * E < F * r.counterElapsed.toNat + F by linarith)
  rw [← hestimate] at herror
  refine ⟨r, _, hrun, ?_, (count_reads E).1, (count_reads E).2, helapsed,
    eq_div_or_eq_ceilDiv hclose.1 hclose.2, herror.1, herror.2, fun hwhole => ?_⟩
  · have hnow : d.now + .ofNat E * d.step = .ofNat t := by
      apply UInt64.toNat_inj.1
      rw [Clock.toNat_now_add htime, ← hend, UInt64.toNat_ofNat', Nat.mod_eq_of_lt htime]
    rw [← hnow]
    rfl
  · have hexact : r.counterElapsed.toNat * F = E * R := eq_of_dvd_of_close hwhole hclose.1 hclose.2
    rw [hestimate]
    exact estimateFrequency_eq_of_cross hne (show F * r.counterElapsed.toNat = R * E by linarith)

/-- A time that is a whole number of ticks neither of the timer nor of the counter; the counter passes a
whole number of ticks in the first wait and not in the second. -/
theorem calibrate_aligned_any_phase :
    (∃ r b, (calibrate 1003 : Trial _) (.ofSource (.clock ((Clock.ofRates 8 1001).advance 777777777))) =
        (.ok (.ok r), b) ∧
      b.timerReads = 8 + 1 ∧ b.reads.count .counter = 2 ∧ r.timerElapsed = 8 ∧
      (r.counterElapsed.toNat = 8 * 1001 / 8 ∨ r.counterElapsed.toNat = 8 * 1001 ⌈/⌉ 8) ∧
      r.estimate = 1001) ∧
    ∃ r b, (calibrate 250 : Trial _) (.ofSource (.clock ((Clock.ofRates 8 1001).advance 777777777))) =
        (.ok (.ok r), b) ∧
      r.timerElapsed = 2 ∧
      (r.counterElapsed.toNat = 2 * 1001 / 8 ∨ r.counterElapsed.toNat = 2 * 1001 ⌈/⌉ 8) ∧
      r.estimate.toNat * 2 < 1001 * 2 + 8 ∧ 1001 * 2 < r.estimate.toNat * 2 + 8 + 2 := by
  constructor
  · obtain ⟨r, b, hrun, -, htimer, hcounter, helapsed, hcount, -, -, hexact⟩ :=
      calibrate_aligned 8 1001 777777777 1003 (by decide) (by decide) (by decide) (by decide)
    exact ⟨r, b, hrun, htimer, hcounter, helapsed, hcount, hexact (by decide)⟩
  · obtain ⟨r, b, hrun, -, -, -, helapsed, hcount, hupper, hlower, -⟩ :=
      calibrate_aligned 8 1001 777777777 250 (by decide) (by decide) (by decide) (by decide)
    exact ⟨r, b, hrun, helapsed, hcount, hupper, hlower⟩

theorem estimateFrequency_eq_zero_iff {frequency counter timer : UInt64} :
    estimateFrequency frequency counter timer = 0 ↔
      timer = 0 ∨ frequency.toNat * counter.toNat < timer.toNat := by
  unfold estimateFrequency
  split_ifs with ht
  · simp [ht]
  · have hpos : 0 < timer.toNat := Nat.pos_of_ne_zero fun hz => ht (UInt64.toNat_inj.1 hz)
    rw [← UInt64.toNat_inj, Word.toNat_clamp, UInt64.toNat_zero, Nat.min_eq_zero_iff,
      Nat.div_eq_zero_iff]
    simp only [ht, false_or, Word.maxNat]
    omega

/-- When a calibration finds no estimate. The timer stands still only in a wait of no ticks, but that is
not the only case: the estimate is also zero if the counter passes fewer ticks than the timer passes
seconds. A counter that is fast enough for the wait passes more. -/
theorem calibrate_unavailable_iff {c : Clock} {waitMs : UInt64} {r : Calibration} {b : Bench}
    (hwait : 1 ≤ waitMs)
    (hrun : (calibrate waitMs : Trial _) (.ofSource (.clock c)) = (.ok (.ok r), b)) :
    let F := c.frequency.toNat
    let R := c.rate.toNat
    let E := r.timerElapsed.toNat
    let x := r.counterElapsed.toNat
    let t := c.now.toNat + b.timerReads * c.step.toNat
    (r.timerElapsed = 0 ↔ waitTicks c.frequency waitMs = 0) ∧
      (r.available = false ↔ r.timerElapsed = 0 ∨ F * x < E) ∧
      ((r.available = false ↔ r.timerElapsed = 0) ↔ E ≤ F * x) ∧
      (t < 2 ^ 64 → t * F / 10 ^ 9 < 2 ^ 64 → t * R / 10 ^ 9 < 2 ^ 64 → F + R + E ≤ R * E →
        E ≤ F * x) := by
  intro F R E x t
  obtain ⟨j, hwaits, hr, hb⟩ := (Clock.calibrate_iff_waits hwait).1 hrun
  have htimer : r.timerElapsed = c.readTimer.2.elapsedAfter j := by rw [hr]; rfl
  have hestimate : r.estimate = estimateFrequency c.frequency r.counterElapsed r.timerElapsed := by
    rw [hr]
    rfl
  have hnone : r.available = false ↔ r.timerElapsed = 0 ∨ F * x < E := by
    rw [← estimateFrequency_eq_zero_iff, ← hestimate]
    simp [Calibration.available]
  refine ⟨?_, hnone, ?_, ?_⟩
  · rw [htimer]
    exact hwaits.elapsed_eq_zero_iff
  · rw [hnone]
    constructor
    · intro hdoc
      by_contra hlt
      have hzero : E = 0 := congrArg UInt64.toNat (hdoc.1 (.inr (Nat.lt_of_not_le hlt)))
      omega
    · intro hle
      exact or_iff_left (Nat.not_lt.2 hle)
  · intro htime hcut hcut' hfast
    have hreads : b.timerReads = j + 1 := by rw [hb]; exact (count_reads j).1
    have ht : c.timeAfter (j + 1) = t := by
      rw [← hreads]
      rfl
    have hend : c.readTimer.2.timeAfter j = t := by
      rw [← ht] at htime ⊢
      exact Clock.timeAfter_readTimer htime
    rw [← hend] at htime hcut hcut'
    rcases Nat.eq_zero_or_pos (F + R) with hzero | hpos
    · have hR : R = 0 := by omega
      rw [hR, Nat.zero_mul] at hfast
      omega
    · have hshare : R * E < F * x + R + F := by
        have hx : r.counterElapsed = Word.sub
            (c.readTimer.2.advance (.ofNat j * c.step)).readCounter c.readTimer.2.readCounter := by
          rw [hr]
          rfl
        change R * r.timerElapsed.toNat < F * r.counterElapsed.toNat + R + F
        rw [htimer, hx]
        exact Clock.rate_mul_elapsed_lt (c := c.readTimer.2) hpos htime hcut hcut'
      omega

theorem calibrate_unavailable_iff_fast_counter : ∃ b : Bench,
    (calibrate 2 : Trial _) (.ofSource (.clock ⟨1500, 7777, 700001, 123456789, none⟩)) =
      (.ok (.ok ⟨16, 3, 1500, 8000⟩), b) ∧
    1500 + 7777 + 3 ≤ 7777 * 3 ∧ 3 ≤ 1500 * 16 ∧
    ((⟨16, 3, 1500, 8000⟩ : Calibration).available = false ↔ (3 : UInt64) = 0) := by
  have hrun : (calibrate 2 : Trial _) (.ofSource (.clock ⟨1500, 7777, 700001, 123456789, none⟩)) =
      (.ok (.ok ⟨16, 3, 1500, 8000⟩), _) := Program.eq_of_fst_eq (by decide +kernel)
  obtain ⟨-, -, hiff, hfast⟩ := calibrate_unavailable_iff (by decide) hrun
  have hle := hfast (by decide +kernel) (by decide +kernel) (by decide +kernel) (by decide)
  exact ⟨_, hrun, by decide, hle, hiff.2 hle⟩

/-- A counter of one tick per second: the timer passes 1200 ticks of a millisecond and the counter one of
its own, and yet there is no estimate. -/
theorem calibrate_unavailable_slow_counter :
    let c := Clock.withStep 1000 1 1200000000
    let r : Calibration := ⟨1, 1200, 1000, 0⟩
    1 ≤ c.frequency ∧ 1 ≤ c.rate ∧ 1 ≤ c.step ∧
      ∃ b, (calibrate 1 : Trial _) (.ofSource (.clock c)) = (.ok (.ok r), b) ∧
        b.source = .clock { c with now := 2400000000 } ∧
        2400000000 * 1000 / 10 ^ 9 < 2 ^ 64 ∧ 2400000000 * 1 / 10 ^ 9 < 2 ^ 64 ∧
        ¬(r.available = false ↔ r.timerElapsed = 0) ∧
        ¬(r.available = false ↔ waitTicks c.frequency 1 = 0) := by
  intro c r
  have hrun : (calibrate 1 : Trial _) (.ofSource (.clock c)) = (.ok (.ok r), _) :=
    Program.eq_of_fst_eq (by decide +kernel)
  exact ⟨by decide, by decide, by decide, _, hrun, by decide +kernel, by decide, by decide, by decide,
    by decide⟩

end Chronometry
