import Chronometry.Proofs.RepetitionProtocol
import Chronometry.Proofs.WaitLength

/-! Repetitions on a simulated clock. Main statement: a repetition makes no more runs than its budget
needs at the pace of the budget checks alone, only its last run can go past the budget, and the ticks of
a run are those of its work. -/
namespace Chronometry

namespace Clock

/-- The time that the clock keeps after `i` rounds, each of which works and then reads the timer. -/
def roundNow (c : Clock) (works : Nat → UInt64) : Nat → UInt64
  | 0 => c.now
  | i + 1 => c.roundNow works i + works i + c.step

def afterRounds (c : Clock) (works : Nat → UInt64) (i : Nat) : Clock :=
  { c with now := c.roundNow works i }

/-- The exact time after `i` rounds; the clock keeps it until it wraps. -/
def roundTime (c : Clock) (works : Nat → UInt64) (i : Nat) : Nat :=
  c.now.toNat + ∑ j ∈ Finset.range i, ((works j).toNat + c.step.toNat)

/-- What a repetition reads whose first timer reading has just been taken. -/
def roundReadings (c : Clock) (works : Nat → UInt64) : Readings where
  frequency := c.frequency
  timer i := scale (c.roundNow works i) c.frequency
  counter j :=
    let begun := c.roundNow works (j / 2)
    scale (if j % 2 = 0 then begun else begun + works (j / 2)) c.rate
  reported := c.reported

section Rounds
variable (c : Clock) (works : Nat → UInt64) (i : Nat)

theorem counter_even :
    (c.roundReadings works).counter (2 * i) = scale (c.roundNow works i) c.rate := by
  simp [roundReadings]

theorem counter_odd :
    (c.roundReadings works).counter (2 * i + 1) = scale (c.roundNow works i + works i) c.rate := by
  have hhalf : (2 * i + 1) / 2 = i := by omega
  simp [roundReadings, hhalf]

theorem supplied_clock : Repetition.Supplied (c.roundReadings works) (fun i => Trial.advance (works i))
    (fun i => .clock (c.afterRounds works i)) i where
  first := by
    rw [counter_even]
    rfl
  works := by
    intro b hb
    let worked := (c.afterRounds works i).advance (works i)
    let b' : Bench := { b with source := b.source.advance (works i) }
    have hb' : b'.source = .clock worked := by
      change b.source.advance (works i) = _
      rw [hb]
      rfl
    refine ⟨b', rfl, ?_, ?_, ?_⟩
    · rw [hb', counter_odd]
      rfl
    · rw [hb', Source.afterCounter, timerAt_zero]
      rfl
    · rw [hb', Source.afterCounter, afterTimers_one]
      rfl

theorem roundTime_succ :
    c.roundTime works (i + 1) = c.roundTime works i + ((works i).toNat + c.step.toNat) := by
  rw [roundTime, Finset.sum_range_succ, ← Nat.add_assoc]
  rfl

theorem roundTime_mono {i j : Nat} (h : i ≤ j) : c.roundTime works i ≤ c.roundTime works j := by
  induction h with
  | refl => exact Nat.le_refl _
  | step _ ih =>
    rw [roundTime_succ]
    omega

theorem roundTime_eq : c.roundTime works i =
    c.now.toNat + (i * c.step.toNat + ∑ j ∈ Finset.range i, (works j).toNat) := by
  rw [roundTime, Finset.sum_add_distrib, Finset.sum_const, Finset.card_range, smul_eq_mul,
    Nat.add_comm (i * _)]

theorem mul_step_le_roundTime : c.now.toNat + i * c.step.toNat ≤ c.roundTime works i := by
  rw [roundTime_eq]
  omega

end Rounds

section Times
variable {c : Clock} {works : Nat → UInt64} {i j rate : Nat}

theorem toNat_roundNow (h : c.roundTime works i < 2 ^ 64) :
    (c.roundNow works i).toNat = c.roundTime works i := by
  induction i with
  | zero => simp [roundNow, roundTime]
  | succ i ih =>
    rw [roundTime_succ] at h ⊢
    have hnow := ih (by omega)
    rw [roundNow, UInt64.toNat_add, UInt64.toNat_add, hnow]
    omega

theorem uncut_of_roundTime_le (hij : i ≤ j) (h : c.roundTime works j * rate / 10 ^ 9 < 2 ^ 64) :
    c.roundTime works i * rate / 10 ^ 9 < 2 ^ 64 :=
  (Nat.div_le_div_right (Nat.mul_le_mul_right _ (c.roundTime_mono works hij))).trans_lt h

/-- The ticks of a run are those of its work, however long the look at the budget takes. -/
theorem ticks_close (htime : c.roundTime works (i + 1) < 2 ^ 64)
    (hticks : c.roundTime works (i + 1) * c.rate.toNat / 10 ^ 9 < 2 ^ 64) :
    let x := ((c.roundReadings works).ticks i).toNat
    x * 10 ^ 9 < (works i).toNat * c.rate.toNat + 10 ^ 9 ∧
      (works i).toNat * c.rate.toNat < x * 10 ^ 9 + 10 ^ 9 := by
  rw [roundTime_succ] at htime hticks
  have hbegun : (c.roundNow works i).toNat = c.roundTime works i := toNat_roundNow (by omega)
  have hended : (c.roundNow works i + works i).toNat = c.roundTime works i + (works i).toNat := by
    rw [UInt64.toNat_add, hbegun]
    omega
  have hcut : (c.roundNow works i + works i).toNat * c.rate.toNat / 10 ^ 9 < 2 ^ 64 := by
    rw [hended]
    exact (Nat.div_le_div_right (Nat.mul_le_mul_right _ (by omega))).trans_lt hticks
  have hle : (c.roundNow works i).toNat ≤ (c.roundNow works i + works i).toNat := by omega
  have hclose := sub_scale_close hle hcut
  rw [hended, hbegun, Nat.add_sub_cancel_left] at hclose
  rw [Readings.ticks, counter_even, counter_odd]
  exact hclose

/-- Timer ticks from the start of the first run to the look at the budget after `i` rounds. -/
def spentAfter (c : Clock) (works : Nat → UInt64) (i : Nat) : UInt64 :=
  Word.sub ((c.roundReadings works).timer i) ((c.roundReadings works).timer 0)

theorem toNat_spentAfter (htime : c.roundTime works i < 2 ^ 64)
    (hticks : c.roundTime works i * c.frequency.toNat / 10 ^ 9 < 2 ^ 64) :
    (c.spentAfter works i).toNat =
      c.roundTime works i * c.frequency.toNat / 10 ^ 9 - c.now.toNat * c.frequency.toNat / 10 ^ 9 := by
  have hnow := toNat_roundNow htime
  have hle : c.now.toNat ≤ (c.roundNow works i).toNat := by
    rw [hnow]
    exact Nat.le_add_right _ _
  change (Word.sub (scale (c.roundNow works i) c.frequency) (scale c.now c.frequency)).toNat = _
  rw [toNat_sub_scale hle (by rwa [hnow]), hnow]

theorem spentAfter_zero : (c.spentAfter works 0).toNat = 0 := by
  rw [spentAfter, Word.toNat_sub, Nat.sub_self]

/-- At the pace of the budget checks alone the budget is used up, so it is with the work too. -/
theorem le_spentAfter {target : UInt64} (htime : c.roundTime works i < 2 ^ 64)
    (hticks : c.roundTime works i * c.frequency.toNat / 10 ^ 9 < 2 ^ 64)
    (hpace : target.toNat * 10 ^ 9 ≤ i * (c.step.toNat * c.frequency.toNat)) :
    target ≤ c.spentAfter works i := by
  have hsteps := Nat.mul_le_mul_right c.frequency.toNat (c.mul_step_le_roundTime works i)
  rw [Nat.add_mul, Nat.mul_assoc] at hsteps
  rw [UInt64.le_iff_toNat_le, toNat_spentAfter htime hticks]
  omega

theorem spentAfter_succ_le (htime : c.roundTime works (i + 1) < 2 ^ 64)
    (hticks : c.roundTime works (i + 1) * c.frequency.toNat / 10 ^ 9 < 2 ^ 64) :
    (c.spentAfter works (i + 1)).toNat ≤ (c.spentAfter works i).toNat +
      ((works i).toNat + c.step.toNat) * c.frequency.toNat ⌈/⌉ 10 ^ 9 := by
  have hle : i ≤ i + 1 := Nat.le_succ i
  rw [toNat_spentAfter htime hticks,
    toNat_spentAfter ((c.roundTime_mono works hle).trans_lt htime) (uncut_of_roundTime_le hle hticks),
    Nat.ceilDiv_eq_add_pred_div]
  have hround : c.roundTime works (i + 1) * c.frequency.toNat =
      c.roundTime works i * c.frequency.toNat +
        ((works i).toNat + c.step.toNat) * c.frequency.toNat := by
    rw [roundTime_succ, Nat.add_mul]
  omega

/-- The budget is used up for the first time at the look after `n` rounds. -/
structure Spends (c : Clock) (works : Nat → UInt64) (target : UInt64) (n : Nat) : Prop where
  pos : 1 ≤ n
  reached : target ≤ c.spentAfter works n
  before : ∀ i, 1 ≤ i → i < n → c.spentAfter works i < target

theorem exists_spends_le {target : UInt64} (hpos : 1 ≤ i) (h : target ≤ c.spentAfter works i) :
    ∃ n ≤ i, c.Spends works target n := by
  have hex : ∃ i, 1 ≤ i ∧ target ≤ c.spentAfter works i := ⟨i, hpos, h⟩
  obtain ⟨hfirst, hreached⟩ := Nat.find_spec hex
  refine ⟨Nat.find hex, Nat.find_min' hex ⟨hpos, h⟩, hfirst, hreached, ?_⟩
  intro j hj hlt
  exact UInt64.not_le.1 fun hle => Nat.find_min hex hlt ⟨hj, hle⟩

/-- The look before the last one found some of the budget left, so the last round alone goes past it. -/
theorem Spends.spent_le {target : UInt64} {n : Nat} (h : c.Spends works target n)
    (htarget : 1 ≤ target.toNat) (htime : c.roundTime works n < 2 ^ 64)
    (hticks : c.roundTime works n * c.frequency.toNat / 10 ^ 9 < 2 ^ 64) :
    (c.spentAfter works n).toNat ≤ target.toNat - 1 +
      ((works (n - 1)).toNat + c.step.toNat) * c.frequency.toNat ⌈/⌉ 10 ^ 9 := by
  obtain ⟨i, rfl⟩ := Nat.exists_eq_add_of_le' h.pos
  have hbefore : (c.spentAfter works i).toNat < target.toNat := by
    by_cases hi : i = 0
    · rw [hi, spentAfter_zero]
      exact htarget
    · exact UInt64.lt_iff_toNat_lt.1 (h.before i (by omega) (Nat.lt_succ_self i))
  have hlast := spentAfter_succ_le htime hticks
  rw [Nat.add_sub_cancel]
  omega

end Times

end Clock

namespace Repetition

theorem agrees_repeatFor_advance (t : Tester) (bytes : UInt64) (works : Nat → UInt64) :
    Traced.Agrees (repeatFor t bytes fun i => Traced.advance (works i))
      (repeatFor t bytes fun i => Trial.advance (works i)) :=
  agrees_repeatFor t bytes (fun i => Trial.advance (works i)) fun i => [.advance (works i)]

theorem repeatFor_of_spends {c : Clock} {works : Nat → UInt64} {budgetMs : UInt64} {n : Nat}
    (frequency bytes : UInt64)
    (h : c.readTimer.2.Spends works (waitTicks c.frequency budgetMs) n)
    (hn : n ≤ (Source.clock c).patience) :
    let after := c.readTimer.2
    let r := after.roundReadings works
    let t : Tester := ⟨frequency, budgetMs, none⟩
    ∃ b : Bench, b.source = .clock (after.afterRounds works n) ∧
      repeatFor t bytes (fun i => Traced.advance (works i)) (.ofSource (.clock c)) =
        ((.ok (t.report bytes (r.stream n)), b), .read .timer (r.timer 0) ::
          (List.range n).flatMap (r.round fun i => [.advance (works i)])) :=
  repeatFor_of_rounds frequency bytes (fun i => [.advance (works i)])
    (fun i _ => c.readTimer.2.supplied_clock works i) rfl (Clock.timerAt_zero c)
    (Clock.afterTimers_one c) h.pos hn h.reached h.before

/-- A repetition on a clock, in which run `i` advances the clock by `works i`. Let `t` be the time just
after the first timer reading, and `k` the number of budget checks that use up the budget of `N` ticks by
themselves, at least one. If neither the time nor a reading overflows in `k` rounds, the repetition ends
within them. It ends at the first look at the budget that finds it used up, less than the last round past
it. The clock has moved by the works and by one step for each timer reading, and the ticks of each run are
those of its work. -/
theorem repeatFor_overshoot (c : Clock) (frequency budgetMs bytes : UInt64) (works : Nat → UInt64) :
    let s := c.step.toNat
    let F := c.frequency.toNat
    let R := c.rate.toNat
    let N := (waitTicks c.frequency budgetMs).toNat
    let k := max 1 (N * 10 ^ 9 ⌈/⌉ (s * F))
    let t := c.now.toNat + s
    let T := t + ∑ i ∈ Finset.range k, ((works i).toNat + s)
    let tester : Tester := ⟨frequency, budgetMs, none⟩
    let run := repeatFor tester bytes (fun i => Trial.advance (works i)) (.ofSource (.clock c))
    let watched := repeatFor tester bytes (fun i => Traced.advance (works i)) (.ofSource (.clock c))
    1 ≤ F → 1 ≤ s → T < 2 ^ 64 → T * F / 10 ^ 9 < 2 ^ 64 → T * R / 10 ^ 9 < 2 ^ 64 →
      watched.1 = run ∧
      ∃ n, 1 ≤ n ∧ n ≤ k ∧ ∃ (report : Report) (c' : Clock) (timer first last : Nat → UInt64),
        run.1 = .ok (.ok report) ∧ run.2.source = .clock c' ∧
        watched.2 = .read .timer (timer 0) :: ((List.range n).flatMap fun i =>
          [.read .counter (first i), .advance (works i), .read .counter (last i),
            .read .timer (timer (i + 1))]) ∧
        report.runs.toNat = n ∧
        (∃ stream, (((List.range n).map fun i => (Word.sub (last i) (first i)).toFloat).forM
            Statistics.Stream.update).run .empty = (.ok (), stream) ∧
          stream.summary = .ok report.ticks) ∧
        (1 ≤ N → N ≤ (Word.sub (timer n) (timer 0)).toNat ∧
          (Word.sub (timer n) (timer 0)).toNat ≤
            N - 1 + ((works (n - 1)).toNat + s) * F ⌈/⌉ 10 ^ 9) ∧
        c'.now.toNat = c.now.toNat + ((n + 1) * s + ∑ i ∈ Finset.range n, (works i).toNat) ∧
        ∀ i < n, |((Word.sub (last i) (first i)).toNat : ℤ) * 10 ^ 9 - (works i).toNat * R| <
          10 ^ 9 := by
  intro s F R N k t T tester run watched hF hs htime hticks hcounts
  let after := c.readTimer.2
  have hafter : after.now.toNat = t :=
    Clock.toNat_now_advance ((Nat.le_add_right t _).trans_lt htime)
  have hT : after.roundTime works k = T := congrArg (· + _) hafter
  rw [← hT] at htime hticks hcounts
  have hpace : N * 10 ^ 9 ≤ k * (s * F) := by
    rw [Nat.mul_comm k]
    exact (ceilDiv_le_iff_le_mul (Nat.mul_pos hs hF)).1 (le_max_right _ _)
  obtain ⟨n, hnk, hspends⟩ :=
    Clock.exists_spends_le (le_max_left _ _) (Clock.le_spentAfter htime hticks hpace)
  have hend : after.roundTime works n < 2 ^ 64 := (after.roundTime_mono works hnk).trans_lt htime
  have hn : n < 2 ^ 64 := by
    have hsteps := after.mul_step_le_roundTime works n
    have hone : n * 1 ≤ n * after.step.toNat := Nat.mul_le_mul_left n hs
    omega
  have hpatience : n ≤ (Source.clock c).patience := by
    change n ≤ 0x1_0000_0000_0000_0001
    omega
  let r := after.roundReadings works
  obtain ⟨report, hreport, hruns, -, -, hsummary⟩ := report_stream r tester bytes hspends.pos hn
  obtain ⟨b, hb, hwatched⟩ := repeatFor_of_spends frequency bytes hspends hpatience
  have hagrees : watched.1 = run := agrees_repeatFor_advance tester bytes works _
  have hwatched : watched = _ := hwatched
  have hrun' : run = (.ok (.ok report), b) := by rw [← hagrees, hwatched, ← hreport]
  refine ⟨hagrees, n, hspends.pos, hnk, report, after.afterRounds works n, r.timer,
    fun i => r.counter (2 * i), fun i => r.counter (2 * i + 1), ?_, ?_, ?_, hruns,
    ⟨r.stream n, r.run_forM_ticks n, hsummary⟩, ?_, ?_, ?_⟩
  · rw [hrun']
  · rw [hrun']
    exact hb
  · rw [hwatched]
    rfl
  · intro hN
    exact ⟨UInt64.le_iff_toNat_le.1 hspends.reached,
      hspends.spent_le hN hend (Clock.uncut_of_roundTime_le hnk hticks)⟩
  · have hnow := Clock.toNat_roundNow hend
    rw [Clock.roundTime_eq, hafter] at hnow
    have hlast : (n + 1) * s = s + n * s := by rw [Nat.succ_mul, Nat.add_comm]
    rw [hlast, Nat.add_assoc s, ← Nat.add_assoc]
    exact hnow
  · intro i hi
    have hround := (after.roundTime_mono works hi).trans_lt hend
    obtain ⟨hupper, hlower⟩ :=
      Clock.ticks_close hround (Clock.uncut_of_roundTime_le (hi.trans_le hnk) hcounts)
    rw [abs_lt]
    constructor
    · zify at hlower
      exact neg_lt_sub_iff_lt_add'.2 hlower
    · zify at hupper
      exact sub_left_lt_of_lt_add hupper

theorem repeatFor_overshoot_unaligned :
    ∃ n, 1 ≤ n ∧ n ≤ 3 ∧ ∃ (report : Report) (c' : Clock) (timer first last : Nat → UInt64),
      let trial := repeatFor ⟨1000, 2, none⟩ 4096 (fun i => Trial.advance (.ofNat (250000 * i)))
        (.ofSource (.clock ⟨1500, 7777, 700001, 123456789, none⟩))
      let watched := repeatFor ⟨1000, 2, none⟩ 4096 (fun i => Traced.advance (.ofNat (250000 * i)))
        (.ofSource (.clock ⟨1500, 7777, 700001, 123456789, none⟩))
      watched.1 = trial ∧ trial.1 = .ok (.ok report) ∧ trial.2.source = .clock c' ∧
      watched.2 = .read .timer (timer 0) :: ((List.range n).flatMap fun i =>
        [.read .counter (first i), .advance (.ofNat (250000 * i)), .read .counter (last i),
          .read .timer (timer (i + 1))]) ∧
      report.runs.toNat = n ∧ 3 ≤ (Word.sub (timer n) (timer 0)).toNat ∧
      (Word.sub (timer n) (timer 0)).toNat ≤
        3 - 1 + ((UInt64.ofNat (250000 * (n - 1))).toNat + 700001) * 1500 ⌈/⌉ 10 ^ 9 ∧
      c'.now.toNat = 123456789 +
        ((n + 1) * 700001 + ∑ i ∈ Finset.range n, (UInt64.ofNat (250000 * i)).toNat) ∧
      ∀ i < n, |((Word.sub (last i) (first i)).toNat : ℤ) * 10 ^ 9 -
        (UInt64.ofNat (250000 * i)).toNat * 7777| < 10 ^ 9 := by
  obtain ⟨hagrees, n, hpos, hn, report, c', timer, first, last, hrun, hsource, htrace, hruns, -, hbudget,
      hnow, hticks⟩ :=
    repeatFor_overshoot ⟨1500, 7777, 700001, 123456789, none⟩ 1000 2 4096 (fun i => .ofNat (250000 * i))
      (by decide) (by decide) (by decide) (by decide) (by decide)
  obtain ⟨hreached, hover⟩ := hbudget (by decide)
  exact ⟨n, hpos, hn.trans (by decide), report, c', timer, first, last, hagrees, hrun, hsource, htrace,
    hruns, hreached, hover, hnow, hticks⟩

end Repetition

end Chronometry
