import Chronometry.Proofs.CalibrationAccuracy
import Chronometry.Proofs.Measuring
import Mathlib.Algebra.Order.Floor.Div
import Mathlib.GroupTheory.GroupAction.Ring

/-! Waits on a simulated clock. Main statement: a wait takes no more readings than its target needs at
the pace of the clock, and it ends less than one reading past the target. -/
namespace Chronometry

namespace Clock

/-- What the timer shows `j` timer readings from now. -/
def reading (c : Clock) (j : Nat) : UInt64 := scale (c.now + .ofNat j * c.step) c.frequency

/-- Timer ticks from now to `j` timer readings later. -/
def elapsedAfter (c : Clock) (j : Nat) : UInt64 := Word.sub (c.reading j) (scale c.now c.frequency)

/-- A wait that starts now is over after `j` timer readings, and not before. -/
structure Waits (c : Clock) (target : UInt64) (j : Nat) : Prop where
  reached : target ≤ c.elapsedAfter j
  before : ∀ i < j, c.elapsedAfter i < target

section Programs
variable {c : Clock} {target last waitMs : UInt64} {b : Bench}

theorem latest_clock (c : Clock) (j : Nat) :
    (Source.clock c).latest (scale c.now c.frequency) j = some (c.reading j) := by
  cases j with
  | zero => simp [Source.latest, reading]
  | succ j => rfl

theorem waitsUntil_iff_waits {j : Nat} {r : UInt64} :
    (Source.clock c).WaitsUntil (scale c.now c.frequency) target (scale c.now c.frequency) j r ↔
      c.Waits target j ∧ r = c.reading j := by
  constructor
  · rintro ⟨hread, hreached, hbefore⟩
    rw [latest_clock] at hread
    cases hread
    refine ⟨⟨hreached, fun i hi => ?_⟩, rfl⟩
    obtain ⟨q, hq, hlt⟩ := hbefore i hi
    rw [latest_clock] at hq
    cases hq
    exact hlt
  · rintro ⟨⟨hreached, hbefore⟩, rfl⟩
    exact ⟨latest_clock c j, hreached, fun i hi => ⟨_, latest_clock c i, hbefore i hi⟩⟩

theorem timerAt_zero (c : Clock) : (Source.clock c).timerAt 0 = some c.readTimer.1 := by
  simp [Source.timerAt, readTimer, advance]

theorem afterTimers_one (c : Clock) : (Source.clock c).afterTimers 1 = .clock c.readTimer.2 := by
  simp [Source.afterTimers, readTimer, advance]

theorem afterTimers_succ (c : Clock) (j : Nat) : (Source.clock c).afterTimers (j + 1) =
    .clock (c.readTimer.2.advance (.ofNat j * c.step)) := by
  rw [Nat.add_comm, ← Source.afterTimers_afterTimers, afterTimers_one]
  rfl

theorem spinUntil_iff_waits :
    (spinUntil (scale c.now c.frequency) target : Trial _) (.ofSource (.clock c)) = (.ok last, b) ↔
      ∃ j, c.Waits target j ∧ last = c.reading j ∧ b = (Bench.ofSource (.clock c)).afterTimers j := by
  rw [spinUntil_eq_ok_iff]
  simp only [Bench.ofSource, waitsUntil_iff_waits, and_assoc]

theorem measureTimer_iff_waits {sample : Sample} :
    (measureTimer target : Trial _) (.ofSource (.clock c)) = (.ok sample, b) ↔
      ∃ j, c.readTimer.2.Waits target j ∧
        sample = ⟨⟨c.readTimer.1, c.readTimer.2.reading j⟩, c.frequency⟩ ∧
        b = (Bench.ofSource (.clock c)).afterTimers (j + 1) := by
  rw [measureTimer_eq_ok_iff]
  constructor
  · rintro ⟨start, last, j, hstart, hlast, rfl, rfl⟩
    cases (timerAt_zero c).symm.trans hstart
    rw [Bench.ofSource, afterTimers_one] at hlast
    obtain ⟨hwaits, rfl⟩ := waitsUntil_iff_waits.1 hlast
    exact ⟨j, hwaits, rfl, rfl⟩
  · rintro ⟨j, hwaits, rfl, rfl⟩
    refine ⟨_, _, j, timerAt_zero c, ?_, rfl, rfl⟩
    rw [Bench.ofSource, afterTimers_one]
    exact waitsUntil_iff_waits.2 ⟨hwaits, rfl⟩

/-- The readings of a measurement with both clocks: the counter is read at the times of the first and the
last timer reading. -/
theorem exists_readings_iff {P : UInt64 → UInt64 → UInt64 → UInt64 → Nat → Prop} :
    (∃ start first last final k,
      (Source.clock c).timerAt 0 = some start ∧
      ((Source.clock c).afterTimers 1).nextCounter = some first ∧
      ((Source.clock c).afterTimers 1).WaitsUntil start target start k last ∧
      ((Source.clock c).afterTimers (k + 1)).afterCounter.nextCounter = some final ∧
      P start first last final k) ↔
    ∃ j, c.readTimer.2.Waits target j ∧
      P c.readTimer.1 c.readTimer.2.readCounter (c.readTimer.2.reading j)
        (c.readTimer.2.advance (.ofNat j * c.step)).readCounter j := by
  rw [afterTimers_one]
  constructor
  · rintro ⟨start, first, last, final, j, hstart, hfirst, hlast, hfinal, h⟩
    cases (timerAt_zero c).symm.trans hstart
    cases hfirst
    obtain ⟨hwaits, rfl⟩ := waitsUntil_iff_waits.1 hlast
    rw [afterTimers_succ] at hfinal
    cases hfinal
    exact ⟨j, hwaits, h⟩
  · rintro ⟨j, hwaits, h⟩
    refine ⟨_, _, _, _, j, timerAt_zero c, rfl, waitsUntil_iff_waits.2 ⟨hwaits, rfl⟩, ?_, h⟩
    rw [afterTimers_succ]
    rfl

theorem measureBoth_iff_waits {m : Sample × Span} :
    (measureBoth target : Trial _) (.ofSource (.clock c)) = (.ok m, b) ↔
      ∃ j, c.readTimer.2.Waits target j ∧
        m = (⟨⟨c.readTimer.1, c.readTimer.2.reading j⟩, c.frequency⟩,
          ⟨c.readTimer.2.readCounter, (c.readTimer.2.advance (.ofNat j * c.step)).readCounter⟩) ∧
        b = ⟨.clock (c.readTimer.2.advance (.ofNat j * c.step)),
          #[.timer, .counter] ++ Array.replicate j .timer ++ #[.counter], #[], addressSpace⟩ := by
  refine measureBoth_eq_ok_iff.trans (exists_readings_iff.trans ?_)
  simp only [Bench.ofSource, afterTimers_succ, Array.empty_append]
  rfl

theorem calibrate_iff_waits {r : Calibration} (hwait : 1 ≤ waitMs) :
    (calibrate waitMs : Trial _) (.ofSource (.clock c)) = (.ok (.ok r), b) ↔
      ∃ j, c.readTimer.2.Waits (waitTicks c.frequency waitMs) j ∧
        r = .ofSpans c.frequency ⟨c.readTimer.1, c.readTimer.2.reading j⟩
          ⟨c.readTimer.2.readCounter, (c.readTimer.2.advance (.ofNat j * c.step)).readCounter⟩ ∧
        b = ⟨.clock (c.readTimer.2.advance (.ofNat j * c.step)),
          #[.timer, .counter] ++ Array.replicate j .timer ++ #[.counter],
          #[r.logRecord (waitTicks c.frequency waitMs) waitMs], addressSpace⟩ := by
  rw [calibrate_eq_ok_iff hwait]
  refine calibrateFor_eq_ok_iff.trans (exists_readings_iff.trans ?_)
  simp only [Bench.ofSource, afterTimers_succ, Array.empty_append]
  rfl

end Programs

section Pace
variable {c : Clock} {target : UInt64} {i j : Nat}

theorem toNat_elapsedAfter (htime : c.timeAfter j < 2 ^ 64)
    (hticks : c.timeAfter j * c.frequency.toNat / 10 ^ 9 < 2 ^ 64) :
    (c.elapsedAfter j).toNat =
      c.timeAfter j * c.frequency.toNat / 10 ^ 9 - c.now.toNat * c.frequency.toNat / 10 ^ 9 := by
  have hnow := toNat_now_add htime
  have hle : c.now.toNat ≤ (c.now + .ofNat j * c.step).toNat := by
    rw [hnow]
    exact Nat.le_add_right _ _
  rw [elapsedAfter, reading, toNat_sub_scale hle (by rwa [hnow]), hnow]

theorem timeAfter_mul (c : Clock) (j rate : Nat) :
    c.timeAfter j * rate = c.now.toNat * rate + j * (c.step.toNat * rate) := by
  rw [timeAfter, Nat.add_mul, Nat.mul_assoc]

theorem timeAfter_readTimer (h : c.timeAfter (j + 1) < 2 ^ 64) :
    c.readTimer.2.timeAfter j = c.timeAfter (j + 1) := by
  have hsucc : c.timeAfter (j + 1) = c.now.toNat + c.step.toNat + j * c.step.toNat := by
    rw [timeAfter, Nat.succ_mul]
    omega
  change (c.now + c.step).toNat + j * c.step.toNat = _
  rw [UInt64.toNat_add, Nat.mod_eq_of_lt (by omega), hsucc]

theorem uncut_of_le {rate : Nat} (hij : i ≤ j) (hticks : c.timeAfter j * rate / 10 ^ 9 < 2 ^ 64) :
    c.timeAfter i * rate / 10 ^ 9 < 2 ^ 64 :=
  (Nat.div_le_div_right (Nat.mul_le_mul_right _ (c.timeAfter_mono hij))).trans_lt hticks

theorem elapsedAfter_of_still (h : .ofNat j * c.step = 0) : c.elapsedAfter j = 0 := by
  apply UInt64.toNat_inj.1
  rw [elapsedAfter, reading, h, UInt64.add_zero, Word.toNat_sub, Nat.sub_self]
  rfl

theorem elapsedAfter_zero (c : Clock) : c.elapsedAfter 0 = 0 := elapsedAfter_of_still (UInt64.zero_mul)

/-- As many readings as the target needs at the pace of the clock are enough. -/
theorem le_elapsedAfter (htime : c.timeAfter j < 2 ^ 64)
    (hticks : c.timeAfter j * c.frequency.toNat / 10 ^ 9 < 2 ^ 64)
    (hpace : target.toNat * 10 ^ 9 ≤ j * (c.step.toNat * c.frequency.toNat)) :
    target ≤ c.elapsedAfter j := by
  rw [UInt64.le_iff_toNat_le, toNat_elapsedAfter htime hticks, timeAfter_mul]
  omega

/-- One more reading adds at most the ticks of one step, rounded up. -/
theorem elapsedAfter_succ_le (htime : c.timeAfter (i + 1) < 2 ^ 64)
    (hticks : c.timeAfter (i + 1) * c.frequency.toNat / 10 ^ 9 < 2 ^ 64) :
    (c.elapsedAfter (i + 1)).toNat ≤
      (c.elapsedAfter i).toNat + c.step.toNat * c.frequency.toNat ⌈/⌉ 10 ^ 9 := by
  have hle : i ≤ i + 1 := Nat.le_succ i
  rw [toNat_elapsedAfter htime hticks,
    toNat_elapsedAfter ((c.timeAfter_mono hle).trans_lt htime) (uncut_of_le hle hticks),
    timeAfter_mul, timeAfter_mul, Nat.ceilDiv_eq_add_pred_div]
  have hsucc : (i + 1) * (c.step.toNat * c.frequency.toNat) =
      i * (c.step.toNat * c.frequency.toNat) + c.step.toNat * c.frequency.toNat := Nat.succ_mul _ _
  omega

theorem exists_waits_le (h : target ≤ c.elapsedAfter j) : ∃ i ≤ j, c.Waits target i := by
  have hex : ∃ i, target ≤ c.elapsedAfter i := ⟨j, h⟩
  exact ⟨Nat.find hex, Nat.find_min' hex h, Nat.find_spec hex,
    fun i hi => UInt64.not_le.1 (Nat.find_min hex hi)⟩

namespace Waits

theorem eq_zero (h : c.Waits 0 j) : j = 0 := by
  by_contra hj
  exact absurd (h.before 0 (by omega)) (by simp)

theorem elapsed_eq_zero_iff (h : c.Waits target j) : c.elapsedAfter j = 0 ↔ target = 0 := by
  constructor
  · intro hstill
    have hreached := h.reached
    rw [hstill] at hreached
    exact UInt64.le_zero_iff.1 hreached
  · rintro rfl
    rw [h.eq_zero]
    exact c.elapsedAfter_zero

theorem pos (h : c.Waits target j) (htarget : target ≠ 0) : 0 < j := by
  apply Nat.pos_of_ne_zero
  rintro rfl
  exact htarget (h.elapsed_eq_zero_iff.1 c.elapsedAfter_zero)

/-- The reading before the last was short of the target, so the last one is past it by less than the
ticks of one step. -/
theorem elapsed_le (h : c.Waits target j) (htarget : target ≠ 0) (htime : c.timeAfter j < 2 ^ 64)
    (hticks : c.timeAfter j * c.frequency.toNat / 10 ^ 9 < 2 ^ 64) :
    (c.elapsedAfter j).toNat ≤ target.toNat - 1 + c.step.toNat * c.frequency.toNat ⌈/⌉ 10 ^ 9 := by
  obtain ⟨i, rfl⟩ := Nat.exists_eq_add_of_lt (h.pos htarget)
  rw [Nat.zero_add] at *
  have hlast := elapsedAfter_succ_le htime hticks
  have hbefore := UInt64.lt_iff_toNat_lt.1 (h.before i (Nat.lt_succ_self i))
  omega

/-- A clock that passes at most one tick with each reading cannot pass over the target. -/
theorem elapsed_eq (h : c.Waits target j) (hstep : c.step.toNat * c.frequency.toNat ≤ 10 ^ 9)
    (htime : c.timeAfter j < 2 ^ 64)
    (hticks : c.timeAfter j * c.frequency.toNat / 10 ^ 9 < 2 ^ 64) : c.elapsedAfter j = target := by
  by_cases htarget : target = 0
  · rw [htarget]
    exact h.elapsed_eq_zero_iff.2 htarget
  · have hpos : 0 < target.toNat := Nat.pos_of_ne_zero fun hz => htarget (UInt64.toNat_inj.1 hz)
    have hone : c.step.toNat * c.frequency.toNat ⌈/⌉ 10 ^ 9 ≤ 1 :=
      (ceilDiv_le_iff_le_mul (by decide)).2 hstep
    have hover := h.elapsed_le htarget htime hticks
    have hreached := UInt64.le_iff_toNat_le.1 h.reached
    apply UInt64.toNat_inj.1
    omega

end Waits

end Pace

theorem toNat_step_ofRates {frequency : UInt64} (rate : UInt64) (hpos : frequency ≠ 0)
    (hle : frequency.toNat ≤ 10 ^ 9) :
    (ofRates frequency rate).step.toNat = 10 ^ 9 / frequency.toNat := by
  have hfpos : 0 < frequency.toNat := Nat.pos_of_ne_zero fun h => hpos (UInt64.toNat_inj.1 h)
  have hone : 1 ≤ 10 ^ 9 / frequency.toNat := Nat.div_pos hle hfpos
  have hfits : 10 ^ 9 / frequency.toNat ≤ 10 ^ 9 := Nat.div_le_self _ _
  change (Word.clamp (if frequency = 0 then 1 else max 1 (10 ^ 9 / frequency.toNat))).toNat = _
  rw [if_neg hpos, Word.toNat_clamp, Word.maxNat]
  omega

/-- A frozen timer ends no wait but that of no ticks. -/
theorem exists_waits_of_frozen_iff {c : Clock} {target : UInt64} (hstep : c.step = 0) :
    (∃ j, c.Waits target j) ↔ target = 0 := by
  constructor
  · rintro ⟨j, hwaits⟩
    exact hwaits.elapsed_eq_zero_iff.1 (elapsedAfter_of_still (by rw [hstep, UInt64.mul_zero]))
  · rintro rfl
    exact ⟨0, by simp, by omega⟩

end Clock

theorem Bench.timerReads_afterTimers (source : Source) (j : Nat) :
    ((Bench.ofSource source).afterTimers j).timerReads = j := by
  simp [timerReads, afterTimers, ofSource]

theorem count_reads (j : Nat) :
    let reads : Array Probe := #[.timer, .counter] ++ Array.replicate j .timer ++ #[.counter]
    reads.count .timer = j + 1 ∧ reads.count .counter = 2 := by
  constructor
  · simp
    omega
  · simp [Array.count_replicate]

/-- Of a program described by the wait it makes, only the wait is left if the result does not matter. -/
theorem exists_result_iff {α β : Type} {W : Nat → Prop} {f : Nat → α} {g : Nat → α → β} :
    (∃ a b j, W j ∧ a = f j ∧ b = g j a) ↔ ∃ j, W j := by
  constructor
  · rintro ⟨-, -, j, hj, -, -⟩
    exact ⟨j, hj⟩
  · rintro ⟨j, hj⟩
    exact ⟨_, _, j, hj, rfl, rfl⟩

/-- Waits on a clock. Let `t` be the time just after the first timer reading, and `k` the readings in
which the clock passes `N` ticks. Every way to wait for `N` ticks ends after at most `k` more readings;
no ticks have passed if `N` is zero, and otherwise at least `N`, but less than `N` and one step together.
A clock that passes at most one tick with each reading stops at the target itself. A frozen clock ends
no wait but that of no ticks. -/
theorem wait_overshoot (c : Clock) (target : UInt64) :
    let start := c.readTimer.1
    let after := c.readTimer.2
    let t := after.now.toNat
    let s := c.step.toNat
    let F := c.frequency.toNat
    let N := target.toNat
    let k := N * 10 ^ 9 ⌈/⌉ (s * F)
    (1 ≤ F → 1 ≤ s → t + k * s < 2 ^ 64 → (t + k * s) * F / 10 ^ 9 < 2 ^ 64 →
      ∃ j ≤ k, ∃ last,
        (∃ b, (spinUntil start target : Trial _) (.ofSource (.clock after)) = (.ok last, b) ∧
          b.timerReads = j) ∧
        (∃ b, (measureTimer target : Trial _) (.ofSource (.clock c)) =
            (.ok ⟨⟨start, last⟩, c.frequency⟩, b) ∧
          b.timerReads = j + 1) ∧
        (∃ counter b, (measureBoth target : Trial _) (.ofSource (.clock c)) =
            (.ok (⟨⟨start, last⟩, c.frequency⟩, counter), b) ∧
          b.timerReads = j + 1) ∧
        (∀ waitMs ≥ 1, waitTicks c.frequency waitMs = target →
          ∃ r b, (calibrate waitMs : Trial _) (.ofSource (.clock c)) = (.ok (.ok r), b) ∧
            r.timerElapsed = Word.sub last start ∧ b.timerReads = j + 1) ∧
        (N = 0 → Word.sub last start = 0) ∧
        (1 ≤ N → N ≤ (Word.sub last start).toNat ∧
          (Word.sub last start).toNat ≤ N - 1 + s * F ⌈/⌉ 10 ^ 9) ∧
        (c.step = (Clock.ofRates c.frequency c.rate).step → F ≤ 10 ^ 9 →
          Word.sub last start = target)) ∧
    (s = 0 →
      ((∃ last b, (spinUntil start target : Trial _) (.ofSource (.clock after)) = (.ok last, b)) ↔
        N = 0) ∧
      ((∃ sample b, (measureTimer target : Trial _) (.ofSource (.clock c)) = (.ok sample, b)) ↔
        N = 0) ∧
      ((∃ m b, (measureBoth target : Trial _) (.ofSource (.clock c)) = (.ok m, b)) ↔ N = 0) ∧
      ∀ waitMs ≥ 1, waitTicks c.frequency waitMs = target →
        ((∃ r b, (calibrate waitMs : Trial _) (.ofSource (.clock c)) = (.ok (.ok r), b)) ↔
          N = 0)) := by
  intro start after t s F N k
  have hzero : N = 0 ↔ target = 0 := UInt64.toNat_inj (b := 0)
  constructor
  · intro hF hs htime hticks
    have hpace : N * 10 ^ 9 ≤ k * (s * F) := by
      rw [Nat.mul_comm k]
      exact (ceilDiv_le_iff_le_mul (Nat.mul_pos hs hF)).1 (Nat.le_refl k)
    obtain ⟨j, hjk, hwaits⟩ := Clock.exists_waits_le (Clock.le_elapsedAfter htime hticks hpace)
    have htime' := (after.timeAfter_mono hjk).trans_lt htime
    have hticks' := Clock.uncut_of_le hjk hticks
    refine ⟨j, hjk, after.reading j, ?_, ?_, ?_, ?_, ?_, ?_, ?_⟩
    · exact ⟨_, Clock.spinUntil_iff_waits.2 ⟨j, hwaits, rfl, rfl⟩, Bench.timerReads_afterTimers _ j⟩
    · exact ⟨_, Clock.measureTimer_iff_waits.2 ⟨j, hwaits, rfl, rfl⟩,
        Bench.timerReads_afterTimers _ (j + 1)⟩
    · exact ⟨_, _, Clock.measureBoth_iff_waits.2 ⟨j, hwaits, rfl, rfl⟩, (count_reads j).1⟩
    · rintro waitMs hwait rfl
      exact ⟨_, _, (Clock.calibrate_iff_waits hwait).2 ⟨j, hwaits, rfl, rfl⟩, rfl, (count_reads j).1⟩
    · intro hN
      exact hwaits.elapsed_eq_zero_iff.2 (hzero.1 hN)
    · intro hN
      have hne : target ≠ 0 := fun h => absurd (hzero.2 h) (Nat.ne_of_gt hN)
      exact ⟨UInt64.le_iff_toNat_le.1 hwaits.reached, hwaits.elapsed_le hne htime' hticks'⟩
    · intro hstep hF'
      have hne : c.frequency ≠ 0 := fun h => absurd hF (by simp [F, h])
      have hpass : s * F ≤ 10 ^ 9 := by
        change c.step.toNat * F ≤ 10 ^ 9
        rw [hstep, Clock.toNat_step_ofRates c.rate hne hF']
        exact Nat.div_mul_le_self _ _
      exact hwaits.elapsed_eq hpass htime' hticks'
  · intro hs
    have hfrozen : (∃ j, after.Waits target j) ↔ N = 0 := by
      rw [hzero]
      exact Clock.exists_waits_of_frozen_iff (UInt64.toNat_inj.1 hs)
    refine ⟨?_, ?_, ?_, ?_⟩
    · rw [← hfrozen, ← exists_result_iff]
      exact exists₂_congr fun _ _ => Clock.spinUntil_iff_waits
    · simp only [Clock.measureTimer_iff_waits, exists_result_iff]
      exact hfrozen
    · simp only [Clock.measureBoth_iff_waits, exists_result_iff]
      exact hfrozen
    · rintro waitMs hwait rfl
      simp only [Clock.calibrate_iff_waits hwait, exists_result_iff]
      exact hfrozen

/-- A clock that passes more than one tick with each reading, one whose frequency does not divide a
second into whole nanoseconds, and a frozen one. -/
theorem wait_overshoot_unaligned :
    (∃ j ≤ 3, ∃ last r b,
      (calibrate 2 : Trial _) (.ofSource (.clock ⟨1500, 7777, 700001, 123456789, none⟩)) =
        (.ok (.ok r), b) ∧
      r.timerElapsed = Word.sub last 186 ∧ b.timerReads = j + 1 ∧
      3 ≤ r.timerElapsed.toNat ∧ r.timerElapsed.toNat ≤ 3 - 1 + 700001 * 1500 ⌈/⌉ 10 ^ 9) ∧
    (∃ j ≤ 3, ∃ last b,
      (measureTimer 2 : Trial _) (.ofSource (.clock ((Clock.ofRates 7 5).advance 123456789))) =
        (.ok ⟨⟨1, last⟩, 7⟩, b) ∧
      b.timerReads = j + 1 ∧ Word.sub last 1 = 2) ∧
    ¬∃ sample b, (measureTimer 1 : Trial _) (.ofSource (.clock ⟨1000, 1, 0, 5, none⟩)) =
      (.ok sample, b) := by
  refine ⟨?_, ?_, ?_⟩
  · obtain ⟨j, hj, last, -, -, -, hcalibrate, -, hbounds, -⟩ :=
      (wait_overshoot ⟨1500, 7777, 700001, 123456789, none⟩ 3).1 (by decide) (by decide) (by decide)
        (by decide)
    obtain ⟨r, b, hrun, helapsed, hreads⟩ := hcalibrate 2 (by decide) (by decide)
    rw [← helapsed] at hbounds
    exact ⟨j, hj, last, r, b, hrun, helapsed, hreads, hbounds (by decide)⟩
  · obtain ⟨j, hj, last, -, ⟨b, hrun, hreads⟩, -, -, -, -, hexact⟩ :=
      (wait_overshoot ((Clock.ofRates 7 5).advance 123456789) 2).1 (by decide) (by decide) (by decide)
        (by decide)
    exact ⟨j, hj, last, b, hrun, hreads, hexact rfl (by decide)⟩
  · intro hends
    have hfrozen := (wait_overshoot ⟨1000, 1, 0, 5, none⟩ 1).2 (by decide)
    exact absurd (hfrozen.2.1.1 hends) (by decide)

end Chronometry
