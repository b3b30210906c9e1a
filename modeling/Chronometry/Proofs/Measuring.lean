import Chronometry.Proofs.Waiting
import Mathlib.Data.Nat.Find
import Mathlib.Order.Bounds.Basic

/-! What the measurements do on arbitrary readings. Main statements: when a calibration ends and what it
reads in which order, and the agreement of the three ways to measure. -/
namespace Chronometry

theorem Word.le_sub_iff {a b n : UInt64} (hn : n ≠ 0) : n ≤ sub a b ↔ b.toNat + n.toNat ≤ a.toNat := by
  have hpos : 0 < n.toNat := Nat.pos_of_ne_zero fun h => hn (UInt64.toNat_inj.1 h)
  rw [UInt64.le_iff_toNat_le, toNat_sub]
  omega

theorem Source.waitsUntil_afterTimers_iff {s : Source} {start target r : UInt64} {k : Nat}
    (hstart : s.timerAt 0 = some start) :
    (s.afterTimers 1).WaitsUntil start target start k r ↔
      s.timerAt k = some r ∧ target ≤ Word.sub r start ∧
        ∀ j < k, ∃ q, s.timerAt j = some q ∧ Word.sub q start < target := by
  have hlatest : (s.afterTimers 1).latest start = s.timerAt := by
    funext j
    exact latest_afterTimers hstart start j
  constructor
  · rintro ⟨hr, htarget, hbefore⟩
    rw [hlatest] at hr hbefore
    exact ⟨hr, htarget, hbefore⟩
  · rintro ⟨hr, htarget, hbefore⟩
    rw [← hlatest] at hr hbefore
    exact ⟨hr, htarget, hbefore⟩

theorem Word.ne_zero_of_one_le {w : UInt64} (h : 1 ≤ w) : w ≠ 0 := by
  intro hzero
  rw [hzero] at h
  exact absurd h (by decide)

theorem calibrate_eq_map {waitMs : UInt64} (hwait : 1 ≤ waitMs) :
    (calibrate waitMs : Trial _) = .ok <$> calibrateFor waitMs := by
  rw [calibrate, if_neg (Word.ne_zero_of_one_le hwait)]

theorem calibrate_eq_ok_iff {waitMs : UInt64} {r : Calibration} {b b' : Bench} (hwait : 1 ≤ waitMs) :
    (calibrate waitMs : Trial _) b = (.ok (.ok r), b') ↔
      (calibrateFor waitMs : Trial _) b = (.ok r, b') := by
  rw [calibrate_eq_map hwait, Program.map_eq_ok_iff]
  constructor
  · rintro ⟨r', h, hr⟩
    cases hr
    exact h
  · intro h
    exact ⟨r, h, rfl⟩

/-- A script with the first `n` of the timer readings `o`. -/
def Script.upTo (n : Nat) (frequency : UInt64) (o : Nat → UInt64) (counter : List UInt64)
    (reported : Option UInt64) : Script :=
  ⟨frequency, (List.range n).map o, counter, reported⟩

section Script
variable {frequency waitMs h₀ h₁ : UInt64} {o : Nat → UInt64} {rest : List UInt64}
variable {reported : Option UInt64} {n : Nat}

theorem Script.timerAt_upTo_eq_some_iff {counter : List UInt64} {i : Nat} {r : UInt64} :
    (Source.script (.upTo n frequency o counter reported)).timerAt i = some r ↔ i < n ∧ o i = r := by
  change ((List.range n).map o)[i]? = some r ↔ _
  by_cases hi : i < n <;> simp [hi]

theorem Script.waitsUntil_upTo_iff {counter : List UInt64} {k : Nat} {start target r : UInt64}
    (hstart : (Source.script (.upTo n frequency o counter reported)).timerAt 0 = some start) :
    ((Source.script (.upTo n frequency o counter reported)).afterTimers 1).WaitsUntil start target
        start k r ↔
      k < n ∧ o k = r ∧ target ≤ Word.sub r start ∧ ∀ j < k, Word.sub (o j) start < target := by
  rw [Source.waitsUntil_afterTimers_iff hstart]
  simp only [timerAt_upTo_eq_some_iff]
  constructor
  · rintro ⟨⟨hk, hr⟩, hreached, hbefore⟩
    refine ⟨hk, hr, hreached, fun j hj => ?_⟩
    obtain ⟨q, ⟨-, rfl⟩, hq⟩ := hbefore j hj
    exact hq
  · rintro ⟨hk, hr, hreached, hbefore⟩
    exact ⟨⟨hk, hr⟩, hreached, fun j hj => ⟨o j, ⟨by omega, rfl⟩, hbefore j hj⟩⟩

theorem calibrate_upTo_eq_ok_iff {r : Calibration} {b : Bench} (hwait : 1 ≤ waitMs) :
    let script := Source.script (.upTo n frequency o (h₀ :: h₁ :: rest) reported)
    let target := waitTicks frequency waitMs
    (calibrate waitMs : Trial _) (.ofSource script) = (.ok (.ok r), b) ↔
      ∃ k < n, target ≤ Word.sub (o k) (o 0) ∧ (∀ j < k, Word.sub (o j) (o 0) < target) ∧
        r = .ofSpans frequency ⟨o 0, o k⟩ ⟨h₀, h₁⟩ ∧
        b = ⟨(script.afterTimers (k + 1)).afterCounter.afterCounter,
          #[.timer, .counter] ++ Array.replicate k .timer ++ #[.counter],
          #[r.logRecord target waitMs], addressSpace⟩ := by
  intro script target
  rw [calibrate_eq_ok_iff hwait, calibrateFor_eq_ok_iff]
  constructor
  · rintro ⟨start, first, last, final, k, hstart, hfirst, hlast, hfinal, hr, hb⟩
    cases hfirst
    cases hfinal
    obtain ⟨hk, rfl, hreached, hbefore⟩ := (Script.waitsUntil_upTo_iff hstart).1 hlast
    obtain ⟨-, rfl⟩ := Script.timerAt_upTo_eq_some_iff.1 hstart
    exact ⟨k, hk, hreached, hbefore, hr, hb⟩
  · rintro ⟨k, hk, hreached, hbefore, hr, hb⟩
    have hstart : script.timerAt 0 = some (o 0) :=
      Script.timerAt_upTo_eq_some_iff.2 ⟨by omega, rfl⟩
    exact ⟨o 0, h₀, o k, h₁, k, hstart, rfl,
      (Script.waitsUntil_upTo_iff hstart).2 ⟨hk, rfl, hreached, hbefore⟩, rfl, hr, hb⟩

theorem isLeast_reached_iff {target : UInt64} (htarget : target ≠ 0) {k : Nat} :
    IsLeast {i | 1 ≤ i ∧ (o 0).toNat + target.toNat ≤ (o i).toNat} k ↔
      target ≤ Word.sub (o k) (o 0) ∧ ∀ j < k, Word.sub (o j) (o 0) < target := by
  have hpos : 0 < target.toNat := Nat.pos_of_ne_zero fun h => htarget (UInt64.toNat_inj.1 h)
  simp only [← UInt64.not_le, Word.le_sub_iff htarget]
  constructor
  · rintro ⟨⟨-, hk⟩, hleast⟩
    refine ⟨hk, fun j hj hreached => ?_⟩
    have hj1 : 1 ≤ j := by
      apply Nat.one_le_iff_ne_zero.2
      rintro rfl
      omega
    have hkj : k ≤ j := hleast ⟨hj1, hreached⟩
    omega
  · rintro ⟨hk, hbefore⟩
    have hk1 : 1 ≤ k := by
      apply Nat.one_le_iff_ne_zero.2
      rintro rfl
      omega
    refine ⟨⟨hk1, hk⟩, fun i hi => ?_⟩
    by_contra hik
    exact hbefore i (by omega) hi.2

end Script

theorem toNat_waitTicks (frequency waitMs : UInt64) :
    (waitTicks frequency waitMs).toNat =
      min (2 ^ 64 - 1) (frequency.toNat * waitMs.toNat / 1000) := by
  rw [waitTicks, Word.toNat_clamp, Nat.min_comm]
  rfl

theorem Word.toNat_mul_toNat_lt (a b : UInt64) : a.toNat * b.toNat < 2 ^ 128 := by
  have h := Nat.mul_lt_mul'' a.toNat_lt b.toNat_lt
  rwa [← Nat.pow_add] at h

namespace Calibration

theorem ofSpans_of_still (frequency start : UInt64) (counter : Span) :
    ofSpans frequency ⟨start, start⟩ counter = ⟨counter.elapsed.count, 0, frequency, 0⟩ := by
  have helapsed : Word.sub start start = 0 := UInt64.toNat_inj.1 (by simp)
  simp [ofSpans, Span.elapsed, helapsed, estimateFrequency]

/-- Of a timer that moved on nothing is lost but the fraction of the estimate. -/
theorem toNat_ofSpans (frequency : UInt64) (timer counter : Span)
    (h : timer.first.toNat < timer.last.toNat) :
    let r := ofSpans frequency timer counter
    r.timerElapsed.toNat + timer.first.toNat = timer.last.toNat ∧ r.timerElapsed.toNat ≠ 0 ∧
      r.counterElapsed.toNat = counter.last.toNat - counter.first.toNat ∧
      r.estimate.toNat = min (2 ^ 64 - 1)
        (frequency.toNat * r.counterElapsed.toNat / r.timerElapsed.toNat) := by
  intro r
  have helapsed : r.timerElapsed.toNat = timer.last.toNat - timer.first.toNat := Word.toNat_sub _ _
  have hne : r.timerElapsed.toNat ≠ 0 := by omega
  have hestimate : r.estimate =
      Word.clamp (frequency.toNat * r.counterElapsed.toNat / r.timerElapsed.toNat) :=
    if_neg fun hzero => hne (congrArg UInt64.toNat hzero)
  refine ⟨by omega, hne, Word.toNat_sub _ _, ?_⟩
  rw [hestimate, Word.toNat_clamp, Nat.min_comm]
  rfl

end Calibration

/-- A calibration on arbitrary readings: the timer reads `o 0`, `o 1`, and so on without end, of which a
script holds the first `n`, and the counter reads `h₀` and `h₁`. -/
theorem calibrate_reads (frequency waitMs h₀ h₁ : UInt64) (o : Nat → UInt64) (rest : List UInt64)
    (reported : Option UInt64) (hwait : 1 ≤ waitMs) :
    let N := min (2 ^ 64 - 1) (frequency.toNat * waitMs.toNat / 1000)
    let run := fun n => (calibrate waitMs : Trial _)
      (.ofSource (.script (.upTo n frequency o (h₀ :: h₁ :: rest) reported)))
    (waitTicks frequency waitMs).toNat = N ∧
      (N = 0 → ∀ n ≥ 1, ∃ b, run n = (.ok (.ok ⟨Word.sub h₁ h₀, 0, frequency, 0⟩), b) ∧
        b.reads = #[.timer, .counter, .counter]) ∧
      (1 ≤ N →
        ((∃ n r b, run n = (.ok (.ok r), b)) ↔ ∃ i ≥ 1, (o 0).toNat + N ≤ (o i).toNat) ∧
        ∀ i, IsLeast {i | 1 ≤ i ∧ (o 0).toNat + N ≤ (o i).toNat} i → ∀ n > i,
          ∃ r b, run n = (.ok (.ok r), b) ∧
            b.reads = #[.timer, .counter] ++ Array.replicate i .timer ++ #[.counter] ∧
            r.timerElapsed.toNat + (o 0).toNat = (o i).toNat ∧ r.timerElapsed.toNat ≠ 0 ∧
            r.counterElapsed.toNat = h₁.toNat - h₀.toNat ∧ r.timerFrequency = frequency ∧
            r.estimate.toNat = min (2 ^ 64 - 1)
              (frequency.toNat * r.counterElapsed.toNat / r.timerElapsed.toNat) ∧
            frequency.toNat * r.counterElapsed.toNat < 2 ^ 128) ∧
      frequency.toNat * waitMs.toNat < 2 ^ 128 := by
  intro N run
  have hN : (waitTicks frequency waitMs).toNat = N := toNat_waitTicks frequency waitMs
  refine ⟨hN, ?_, ?_, Word.toNat_mul_toNat_lt frequency waitMs⟩
  · intro hzero n hn
    have htarget : waitTicks frequency waitMs = 0 := UInt64.toNat_inj.1 (hN.trans hzero)
    have hover : waitTicks frequency waitMs ≤ Word.sub (o 0) (o 0) := by
      rw [htarget]
      exact UInt64.zero_le
    have hstill := Calibration.ofSpans_of_still frequency (o 0) ⟨h₀, h₁⟩
    exact ⟨_, (calibrate_upTo_eq_ok_iff hwait).2
      ⟨0, by omega, hover, by omega, hstill.symm, rfl⟩, rfl⟩
  · intro hone
    have htarget : waitTicks frequency waitMs ≠ 0 := by
      intro h
      have hzero : N = 0 := by rw [← hN, h]; rfl
      omega
    rw [← hN]
    constructor
    · constructor
      · rintro ⟨n, r, b, hrun⟩
        obtain ⟨k, -, hreached, hbefore, -⟩ := (calibrate_upTo_eq_ok_iff hwait).1 hrun
        obtain ⟨hk, -⟩ := (isLeast_reached_iff htarget).2 ⟨hreached, hbefore⟩
        exact ⟨k, hk.1, hk.2⟩
      · intro hex
        obtain ⟨hreached, hbefore⟩ := (isLeast_reached_iff htarget).1
          ⟨Nat.find_spec hex, fun i hi => Nat.find_min' hex hi⟩
        exact ⟨_, _, _, (calibrate_upTo_eq_ok_iff hwait).2
          ⟨_, Nat.lt_succ_self _, hreached, hbefore, rfl, rfl⟩⟩
    · intro i hi n hn
      obtain ⟨hreached, hbefore⟩ := (isLeast_reached_iff htarget).1 hi
      have hrun : run n = (.ok (.ok (.ofSpans frequency ⟨o 0, o i⟩ ⟨h₀, h₁⟩)), _) :=
        (calibrate_upTo_eq_ok_iff hwait).2 ⟨i, hn, hreached, hbefore, rfl, rfl⟩
      have hmoved : (o 0).toNat < (o i).toNat := by
        have := hi.1.2
        omega
      obtain ⟨htimer, hne, hcounter, hestimate⟩ :=
        Calibration.toNat_ofSpans frequency ⟨o 0, o i⟩ ⟨h₀, h₁⟩ hmoved
      exact ⟨_, _, hrun, rfl, htimer, hne, hcounter, rfl, hestimate, Word.toNat_mul_toNat_lt _ _⟩

/-- The timer goes back below its first reading, and then on to one that ends the wait. -/
theorem calibrate_reads_backwards :
    let o := fun i => ([10, 4, 12, 9, 13, 11] : List UInt64).getD i 0
    (1 : UInt64) ≤ 1 ∧ IsLeast {i | 1 ≤ i ∧ (o 0).toNat + 3 ≤ (o i).toNat} 4 ∧
      ∃ r b, (calibrate 1 : Trial _) (.ofSource (.script (.upTo 6 3000 o [50, 450] none))) =
          (.ok (.ok r), b) ∧
        b.reads = #[.timer, .counter] ++ Array.replicate 4 .timer ++ #[.counter] ∧
        r.timerElapsed.toNat + 10 = 13 ∧ r.timerElapsed.toNat ≠ 0 ∧
        r.counterElapsed.toNat = 450 - 50 ∧ r.timerFrequency = 3000 ∧
        r.estimate.toNat = min (2 ^ 64 - 1) (3000 * r.counterElapsed.toNat / r.timerElapsed.toNat) ∧
        3000 * r.counterElapsed.toNat < 2 ^ 128 := by
  intro o
  have hleast : IsLeast {i | 1 ≤ i ∧ (o 0).toNat + 3 ≤ (o i).toNat} 4 := by
    refine ⟨by decide, fun i hi => ?_⟩
    by_contra hlt
    have hsmall : ∀ i < 4, ¬(1 ≤ i ∧ (o 0).toNat + 3 ≤ (o i).toNat) := by decide
    exact hsmall i (by omega) hi
  obtain ⟨-, -, hsome, -⟩ := calibrate_reads 3000 1 50 450 o [] none (by decide)
  exact ⟨by decide, hleast, (hsome (by decide)).2 4 hleast 6 (by decide)⟩

theorem measureTimer_eq_ok_iff {target : UInt64} {sample : Sample} {b b' : Bench} :
    (measureTimer target : Trial _) b = (.ok sample, b') ↔
      ∃ start last k, b.source.timerAt 0 = some start ∧
        (b.source.afterTimers 1).WaitsUntil start target start k last ∧
        sample = ⟨⟨start, last⟩, b.source.frequency⟩ ∧ b' = b.afterTimers (k + 1) := by
  have hfrequency : ∀ k, (Clocks.frequency : Trial UInt64) (b.afterTimers k) =
      (.ok b.source.frequency, b.afterTimers k) := by
    intro k
    change (Except.ok (b.source.afterTimers k).frequency, _) = _
    cases b.source <;> rfl
  have hbench : ∀ k, (b.afterTimers 1).afterTimers k = b.afterTimers (k + 1) := fun k => by
    rw [Bench.afterTimers_afterTimers, Nat.add_comm]
  unfold measureTimer
  constructor
  · intro h
    obtain ⟨start, b₁, h₁, h⟩ := Program.bind_eq_ok_iff.1 h
    obtain ⟨last, b₂, h₂, h⟩ := Program.bind_eq_ok_iff.1 h
    obtain ⟨hstart, rfl⟩ := Trial.readTimer_eq_ok_iff.1 h₁
    obtain ⟨k, hlast, rfl⟩ := spinUntil_eq_ok_iff.1 h₂
    rw [hbench, Program.bind_of_ok _ (hfrequency _)] at h
    cases h
    exact ⟨start, last, k, hstart, hlast, rfl, rfl⟩
  · rintro ⟨start, last, k, hstart, hlast, rfl, rfl⟩
    refine Program.bind_eq_ok_iff.2 ⟨start, _, Trial.readTimer_eq_ok_iff.2 ⟨hstart, rfl⟩, ?_⟩
    refine Program.bind_eq_ok_iff.2 ⟨last, _, spinUntil_eq_ok_iff.2 ⟨k, hlast, rfl⟩, ?_⟩
    rw [hbench, Program.bind_of_ok _ (hfrequency _)]
    rfl

/-- What a measurement with both clocks finds on the timer, a measurement of the timer alone finds too,
with the two counter readings left out. -/
theorem measureTimer_of_measureBoth {target : UInt64} {timer : Sample} {counter : Span} {b b' : Bench}
    (h : (measureBoth target : Trial _) b = (.ok (timer, counter), b')) :
    ∃ k, (measureTimer target : Trial _) b = (.ok timer, b.afterTimers (k + 1)) ∧
      b'.reads = b.reads ++ #[.timer, .counter] ++ Array.replicate k .timer ++ #[.counter] ∧
      b'.source = (b.afterTimers (k + 1)).source.afterCounter.afterCounter := by
  obtain ⟨start, first, last, final, k, hstart, -, hlast, -, hm, rfl⟩ := measureBoth_eq_ok_iff.1 h
  cases hm
  exact ⟨k, measureTimer_eq_ok_iff.2 ⟨start, last, k, hstart, hlast, rfl, rfl⟩, rfl, rfl⟩

theorem Source.exists_counters {s : Source} (h : ∀ t, s = .script t → 2 ≤ t.counter.length)
    (j k : Nat) : ∃ first final, (s.afterTimers j).nextCounter = some first ∧
      (s.afterTimers k).afterCounter.nextCounter = some final := by
  cases s with
  | clock c => exact ⟨_, _, rfl, rfl⟩
  | script t =>
    obtain ⟨frequency, timer, counter, reported⟩ := t
    have hlen : 2 ≤ counter.length := h _ rfl
    match counter, hlen with
    | first :: final :: rest, _ => exact ⟨first, final, rfl, rfl⟩

/-- Two counter readings are all that a measurement with both clocks needs beside the timer. -/
theorem measureBoth_of_measureTimer {target : UInt64} {timer : Sample} {b b' : Bench}
    (hcounter : ∀ s, b.source = .script s → 2 ≤ s.counter.length)
    (h : (measureTimer target : Trial _) b = (.ok timer, b')) :
    ∃ counter b'', (measureBoth target : Trial _) b = (.ok (timer, counter), b'') := by
  obtain ⟨start, last, k, hstart, hlast, rfl, -⟩ := measureTimer_eq_ok_iff.1 h
  obtain ⟨first, final, hfirst, hfinal⟩ := Source.exists_counters hcounter 1 (k + 1)
  exact ⟨_, _, measureBoth_eq_ok_iff.2
    ⟨start, first, last, final, k, hstart, hfirst, hlast, hfinal, rfl, rfl⟩⟩

/-- A calibration is a measurement with both clocks, whether it ends or not: the same reads in the same
order, the same state of the clocks afterwards, and an estimate from what was measured. -/
theorem calibrate_of_measureBoth {waitMs : UInt64} (hwait : 1 ≤ waitMs) (b : Bench) :
    let both := (measureBoth (waitTicks b.source.frequency waitMs) : Trial _) b
    let calibrated := (calibrate waitMs : Trial _) b
    calibrated.1 = both.1.map (fun m => .ok (.ofSpans m.1.frequency m.1.span m.2)) ∧
      calibrated.2.reads = both.2.reads ∧ calibrated.2.source = both.2.source := by
  intro both calibrated
  have hfor := calibrateFor_apply waitMs b
  have hcalibrated : calibrated = (Except.ok <$> calibrateFor waitMs : Trial _) b := by
    rw [← calibrate_eq_map hwait]
  rcases hboth : both with ⟨cause | ⟨timer, counter⟩, b'⟩
  · simp only [both] at hboth
    rw [hboth] at hfor
    rw [hcalibrated, Program.map_of_error _ hfor]
    exact ⟨rfl, rfl, rfl⟩
  · simp only [both] at hboth
    rw [hboth] at hfor
    obtain ⟨start, first, last, final, k, -, -, -, -, hm, -⟩ := measureBoth_eq_ok_iff.1 hboth
    cases hm
    rw [hcalibrated, Program.map_of_ok _ hfor]
    exact ⟨rfl, rfl, rfl⟩

/-- From one state of the clocks, a calibration and a measurement with both clocks end or do not end
together, read the same and find the same; and so does a measurement of the timer alone, which leaves
the counter be. A script has to hold the two counter readings that the other two take. -/
theorem measuring_paths_agree (b : Bench) {waitMs : UInt64} (hwait : 1 ≤ waitMs) :
    let target := waitTicks b.source.frequency waitMs
    let calibrated := (calibrate waitMs : Trial _) b
    let both := (measureBoth target : Trial _) b
    let alone := (measureTimer target : Trial _) b
    ((∃ r, calibrated.1 = .ok (.ok r)) ↔ ∃ timer counter, both.1 = .ok (timer, counter)) ∧
      calibrated.2.reads = both.2.reads ∧ calibrated.2.source = both.2.source ∧
      (∀ r timer counter, calibrated.1 = .ok (.ok r) → both.1 = .ok (timer, counter) →
        r.timerElapsed = timer.elapsed.count ∧ r.counterElapsed = counter.elapsed.count ∧
        r.timerFrequency = timer.frequency ∧
        r.estimate =
          estimateFrequency timer.frequency counter.elapsed.count timer.elapsed.count) ∧
      ((∀ s, b.source = .script s → 2 ≤ s.counter.length) →
        ((∃ sample, alone.1 = .ok sample) ↔ ∃ r, calibrated.1 = .ok (.ok r))) ∧
      ∀ timer counter, both.1 = .ok (timer, counter) → alone.1 = .ok timer ∧
        (∃ k, both.2.reads =
            b.reads ++ #[.timer, .counter] ++ Array.replicate k .timer ++ #[.counter] ∧
          alone.2.reads = b.reads ++ Array.replicate (k + 1) .timer) ∧
        both.2.source = alone.2.source.afterCounter.afterCounter := by
  intro target calibrated both alone
  obtain ⟨hresult, hreads, hsource⟩ := calibrate_of_measureBoth hwait b
  have hends : (∃ r, calibrated.1 = .ok (.ok r)) ↔ ∃ timer counter, both.1 = .ok (timer, counter) := by
    rw [show calibrated.1 = _ from hresult]
    constructor
    · rintro ⟨r, hr⟩
      cases hboth : both.1 with
      | error cause => rw [hboth] at hr; cases hr
      | ok m => exact ⟨m.1, m.2, rfl⟩
    · rintro ⟨timer, counter, hboth⟩
      rw [show both.1 = _ from hboth]
      exact ⟨_, rfl⟩
  refine ⟨hends, hreads, hsource, ?_, ?_, ?_⟩
  · intro r timer counter hr hboth
    rw [show calibrated.1 = _ from hresult, show both.1 = _ from hboth] at hr
    cases hr
    exact ⟨rfl, rfl, rfl, rfl⟩
  · intro hcounter
    rw [hends]
    constructor
    · rintro ⟨sample, halone⟩
      obtain ⟨counter, b', hboth⟩ :=
        measureBoth_of_measureTimer hcounter (Program.eq_of_fst_eq halone)
      exact ⟨sample, counter, congrArg Prod.fst hboth⟩
    · rintro ⟨timer, counter, hboth⟩
      obtain ⟨k, halone, -⟩ := measureTimer_of_measureBoth (Program.eq_of_fst_eq hboth)
      exact ⟨timer, congrArg Prod.fst halone⟩
  · intro timer counter hboth
    obtain ⟨k, halone, hbothReads, hbothSource⟩ :=
      measureTimer_of_measureBoth (Program.eq_of_fst_eq hboth)
    have halone' : alone = (.ok timer, b.afterTimers (k + 1)) := halone
    rw [halone']
    exact ⟨rfl, ⟨k, hbothReads, rfl⟩, hbothSource⟩

theorem measuring_paths_agree_backwards :
    let b := Bench.ofSource (.script ⟨1000, [10, 4, 12, 13], [7, 5], none⟩)
    let calibrated := (calibrate 2 : Trial _) b
    let both := (measureBoth 2 : Trial _) b
    let alone := (measureTimer 2 : Trial _) b
    (1 : UInt64) ≤ 2 ∧ waitTicks b.source.frequency 2 = 2 ∧ calibrated.1 = .ok (.ok ⟨0, 2, 1000, 0⟩) ∧
      both.1 = .ok (⟨⟨10, 12⟩, 1000⟩, ⟨7, 5⟩) ∧ alone.1 = .ok ⟨⟨10, 12⟩, 1000⟩ ∧
      calibrated.2.reads = both.2.reads ∧ calibrated.2.source = both.2.source ∧
      both.2.source = alone.2.source.afterCounter.afterCounter := by
  intro b calibrated both alone
  have hboth : both.1 = .ok (⟨⟨10, 12⟩, 1000⟩, ⟨7, 5⟩) := by decide +kernel
  have hticks : waitTicks b.source.frequency 2 = 2 := by decide
  have hagree := measuring_paths_agree b (show (1 : UInt64) ≤ 2 by decide)
  rw [hticks] at hagree
  obtain ⟨-, hreads, hsource, -, -, halone⟩ := hagree
  obtain ⟨hsample, -, hcounters⟩ := halone _ _ hboth
  exact ⟨by decide, hticks, by decide +kernel, hboth, hsample, hreads, hsource, hcounters⟩

end Chronometry
