import Chronometry.Calibration
import Chronometry.Proofs.Reading
import Mathlib.Algebra.Ring.Nat

/-! When a wait on the timer ends, and what the measurements read. A wait that ends at all ends within the
patience of its source, so patience never decides a measurement. -/
namespace Chronometry

namespace Source

/-- The latest reading after `k` timer readings, where `last` was the latest before them. -/
def latest (s : Source) (last : UInt64) : Nat → Option UInt64
  | 0 => some last
  | k + 1 => s.timerAt k

theorem latest_afterTimers {s : Source} {q : UInt64} (hq : s.timerAt 0 = some q) (last : UInt64)
    (k : Nat) : (s.afterTimers 1).latest q k = s.latest last (k + 1) := by
  cases k with
  | zero => exact hq.symm
  | succ k =>
    change (s.afterTimers 1).timerAt k = s.timerAt (k + 1)
    rw [timerAt_afterTimers, Nat.add_comm]

/-- A wait for `target` ticks past `start` is over at its `k`-th reading `r`, and at no earlier one. -/
structure WaitsUntil (s : Source) (start target last : UInt64) (k : Nat) (r : UInt64) : Prop where
  reading : s.latest last k = some r
  reached : target ≤ Word.sub r start
  before : ∀ j < k, ∃ q, s.latest last j = some q ∧ Word.sub q start < target

theorem waitsUntil_afterCounter_iff {s : Source} {start target last r : UInt64} {k : Nat} :
    s.afterCounter.WaitsUntil start target last k r ↔ s.WaitsUntil start target last k r := by
  have hl : s.afterCounter.latest last = s.latest last := by
    funext j
    cases j with
    | zero => rfl
    | succ j => exact congrFun s.timerAt_afterCounter j
  constructor
  · rintro ⟨h₁, h₂, h₃⟩
    rw [hl] at h₁ h₃
    exact ⟨h₁, h₂, h₃⟩
  · rintro ⟨h₁, h₂, h₃⟩
    rw [← hl] at h₁ h₃
    exact ⟨h₁, h₂, h₃⟩

/-- A wait that is not over takes one more reading and goes on from there. -/
theorem waitsUntil_succ_iff {s : Source} {start target last r : UInt64} {k : Nat}
    (hlast : Word.sub last start < target) :
    s.WaitsUntil start target last (k + 1) r ↔
      ∃ q, s.timerAt 0 = some q ∧ (s.afterTimers 1).WaitsUntil start target q k r := by
  constructor
  · intro h
    obtain ⟨q, hq⟩ : ∃ q, s.timerAt 0 = some q := by
      cases k with
      | zero => exact ⟨r, h.reading⟩
      | succ k =>
        obtain ⟨q, hq, -⟩ := h.before 1 (by omega)
        exact ⟨q, hq⟩
    refine ⟨q, hq, ?_, h.reached, ?_⟩
    · rw [latest_afterTimers hq last]; exact h.reading
    · intro j hj
      rw [latest_afterTimers hq last]
      exact h.before (j + 1) (by omega)
  · rintro ⟨q, hq, h⟩
    refine ⟨?_, h.reached, ?_⟩
    · rw [← latest_afterTimers hq last]; exact h.reading
    · intro j hj
      cases j with
      | zero => exact ⟨last, rfl, hlast⟩
      | succ j =>
        rw [← latest_afterTimers hq last]
        exact h.before j (by omega)

/-- The time of a clock comes back after `2 ^ 64` timer readings. -/
theorem timerAt_clock_add (c : Clock) (i : Nat) :
    (Source.clock c).timerAt (i + 2 ^ 64) = (Source.clock c).timerAt i := by
  have h : UInt64.ofNat (i + 2 ^ 64 + 1) = UInt64.ofNat (i + 1) := by
    apply UInt64.toNat_inj.1
    simp only [UInt64.toNat_ofNat']
    omega
  simp only [timerAt, h]

/-- A wait that ends at all ends within the patience of its source. -/
theorem WaitsUntil.lt_patience {s : Source} {start target last r : UInt64} {k : Nat}
    (h : s.WaitsUntil start target last k r) : k < s.patience := by
  cases k with
  | zero => cases s <;> simp [patience]
  | succ i =>
    have hread : s.timerAt i = some r := h.reading
    cases s with
    | script s =>
      obtain ⟨hi, -⟩ := List.getElem?_eq_some_iff.1 hread
      exact Nat.succ_lt_succ hi
    | clock c =>
      apply Nat.lt_of_not_le
      intro hk
      have hi : 2 ^ 64 ≤ i := by
        simp only [patience] at hk
        omega
      obtain ⟨j, rfl⟩ := Nat.exists_eq_add_of_le' hi
      -- The same reading came `2 ^ 64` readings ago, and it was not far enough then.
      obtain ⟨q, hq, hlt⟩ := h.before (j + 1) (by omega)
      have hsame : some q = some r := by
        rw [← hq, ← hread, timerAt_clock_add, latest]
      cases hsame
      exact absurd h.reached (UInt64.not_le.2 hlt)

end Source

/-- A wait succeeds if and only if some reading within its patience is far enough, and then it stops at
the first such reading. -/
theorem spin_eq_ok_iff {start target last r : UInt64} {n : Nat} {b b' : Bench} :
    (spin start target n last : Trial UInt64) b = (.ok r, b') ↔
      ∃ k < n, b.source.WaitsUntil start target last k r ∧ b' = b.afterTimers k := by
  induction n generalizing last b with
  | zero =>
    constructor
    · intro h; cases h
    · rintro ⟨k, hk, -⟩; omega
  | succ n ih =>
    by_cases hlast : target ≤ Word.sub last start
    · rw [spin, if_pos hlast, Program.pure_eq_ok_iff]
      constructor
      · rintro ⟨rfl, rfl⟩
        exact ⟨0, by omega, ⟨rfl, hlast, by omega⟩, b.afterTimers_zero.symm⟩
      · rintro ⟨k, -, h, rfl⟩
        cases k with
        | zero => exact ⟨Option.some.inj h.reading, b.afterTimers_zero.symm⟩
        | succ k =>
          obtain ⟨q, hq, hlt⟩ := h.before 0 (by omega)
          cases Option.some.inj hq
          exact absurd hlt (UInt64.not_lt.2 hlast)
    · have hlt := UInt64.not_le.1 hlast
      rw [spin, if_neg hlast, Program.bind_eq_ok_iff]
      constructor
      · rintro ⟨q, b₁, hread, hspin⟩
        obtain ⟨hq, rfl⟩ := Trial.readTimer_eq_ok_iff.1 hread
        obtain ⟨k, hk, h, rfl⟩ := ih.1 hspin
        refine ⟨k + 1, by omega, (Source.waitsUntil_succ_iff hlt).2 ⟨q, hq, h⟩, ?_⟩
        rw [Bench.afterTimers_afterTimers, Nat.add_comm]
      · rintro ⟨k, hk, h, rfl⟩
        cases k with
        | zero =>
          cases Option.some.inj h.reading
          exact absurd h.reached hlast
        | succ k =>
          obtain ⟨q, hq, h⟩ := (Source.waitsUntil_succ_iff hlt).1 h
          refine ⟨q, _, Trial.readTimer_eq_ok_iff.2 ⟨hq, rfl⟩, ih.2 ⟨k, by omega, h, ?_⟩⟩
          rw [Bench.afterTimers_afterTimers, Nat.add_comm]

theorem spinUntil_eq_ok_iff {start target r : UInt64} {b b' : Bench} :
    (spinUntil start target : Trial UInt64) b = (.ok r, b') ↔
      ∃ k, b.source.WaitsUntil start target start k r ∧ b' = b.afterTimers k := by
  have hspin : (spinUntil start target : Trial UInt64) b =
      (spin start target b.source.patience start : Trial UInt64) b := rfl
  rw [hspin, spin_eq_ok_iff]
  constructor
  · rintro ⟨k, -, h⟩
    exact ⟨k, h⟩
  · rintro ⟨k, h, hb⟩
    exact ⟨k, h.lt_patience, h, hb⟩

theorem Bench.source_afterWait (b : Bench) (k : Nat) :
    ((b.afterTimers 1).afterCounter.afterTimers k).source =
      (b.source.afterTimers (k + 1)).afterCounter := by
  change (b.source.afterTimers 1).afterCounter.afterTimers k = _
  rw [Source.afterTimers_afterCounter, Source.afterTimers_afterTimers, Nat.add_comm]

theorem Bench.afterWait_eq (b : Bench) (k : Nat) :
    ((b.afterTimers 1).afterCounter.afterTimers k).afterCounter =
      ⟨(b.source.afterTimers (k + 1)).afterCounter.afterCounter,
        b.reads ++ #[.timer, .counter] ++ Array.replicate k .timer ++ #[.counter],
        b.records, b.memory⟩ := by
  have hreads : ((b.reads ++ Array.replicate 1 Probe.timer).push .counter ++
      Array.replicate k Probe.timer).push .counter =
      b.reads ++ #[.timer, .counter] ++ Array.replicate k .timer ++ #[.counter] := by
    apply Array.toList_inj.1
    simp
  rw [← b.source_afterWait k, ← hreads]
  rfl

theorem calibrateFor_apply (waitMs : UInt64) (b : Bench) :
    (calibrateFor waitMs : Trial _) b =
      match (measureBoth (waitTicks b.source.frequency waitMs) : Trial _) b with
      | (.error cause, b') => (.error cause, b')
      | (.ok (timer, counter), b') =>
        let r := Calibration.ofSpans b.source.frequency timer.span counter
        (.ok r, { b' with
          records := b'.records.push (r.logRecord (waitTicks b.source.frequency waitMs) waitMs) }) := by
  have hfrequency : (Clocks.frequency : Trial UInt64) b = (.ok b.source.frequency, b) := rfl
  unfold calibrateFor measureBoth
  rw [Program.bind_of_ok _ hfrequency]
  generalize waitTicks b.source.frequency waitMs = target
  rcases h₁ : (Clocks.readTimer : Trial UInt64) b with ⟨_ | start, b₁⟩
  · simp only [Program.bind_of_error _ h₁]
  rcases h₂ : (Clocks.readCounter : Trial UInt64) b₁ with ⟨_ | first, b₂⟩
  · simp only [Program.bind_of_ok _ h₁, Program.bind_of_error _ h₂]
  rcases h₃ : (spinUntil start target : Trial UInt64) b₂ with ⟨_ | last, b₃⟩
  · simp only [Program.bind_of_ok _ h₁, Program.bind_of_ok _ h₂, Program.bind_of_error _ h₃]
  rcases h₄ : (Clocks.readCounter : Trial UInt64) b₃ with ⟨_ | final, b₄⟩
  · simp only [Program.bind_of_ok _ h₁, Program.bind_of_ok _ h₂, Program.bind_of_ok _ h₃,
      Program.bind_of_error _ h₄]
  · simp only [Program.bind_of_ok _ h₁, Program.bind_of_ok _ h₂, Program.bind_of_ok _ h₃,
      Program.bind_of_ok _ h₄]
    rfl

/-- A measurement with both clocks reads the timer, the counter, the timer until the wait is over, and
the counter. -/
theorem measureBoth_eq_ok_iff {target : UInt64} {m : Sample × Span} {b b' : Bench} :
    (measureBoth target : Trial _) b = (.ok m, b') ↔
      ∃ start first last final k,
        b.source.timerAt 0 = some start ∧
        (b.source.afterTimers 1).nextCounter = some first ∧
        (b.source.afterTimers 1).WaitsUntil start target start k last ∧
        (b.source.afterTimers (k + 1)).afterCounter.nextCounter = some final ∧
        m = (⟨⟨start, last⟩, b.source.frequency⟩, ⟨first, final⟩) ∧
        b' = ⟨(b.source.afterTimers (k + 1)).afterCounter.afterCounter,
          b.reads ++ #[.timer, .counter] ++ Array.replicate k .timer ++ #[.counter],
          b.records, b.memory⟩ := by
  have hfrequency : ∀ (k : Nat) (reads : Array Probe),
      (Clocks.frequency : Trial UInt64) ⟨(b.source.afterTimers k).afterCounter.afterCounter, reads,
        b.records, b.memory⟩ = (.ok b.source.frequency,
          ⟨(b.source.afterTimers k).afterCounter.afterCounter, reads, b.records, b.memory⟩) := by
    intro k reads
    change (Except.ok (b.source.afterTimers k).afterCounter.afterCounter.frequency, _) = _
    cases b.source <;> rfl
  unfold measureBoth
  constructor
  · intro h
    obtain ⟨start, b₁, h₁, h⟩ := Program.bind_eq_ok_iff.1 h
    obtain ⟨first, b₂, h₂, h⟩ := Program.bind_eq_ok_iff.1 h
    obtain ⟨last, b₃, h₃, h⟩ := Program.bind_eq_ok_iff.1 h
    obtain ⟨final, b₄, h₄, h⟩ := Program.bind_eq_ok_iff.1 h
    obtain ⟨hstart, rfl⟩ := Trial.readTimer_eq_ok_iff.1 h₁
    obtain ⟨hfirst, rfl⟩ := Trial.readCounter_eq_ok_iff.1 h₂
    obtain ⟨k, hlast, rfl⟩ := spinUntil_eq_ok_iff.1 h₃
    obtain ⟨hfinal, rfl⟩ := Trial.readCounter_eq_ok_iff.1 h₄
    rw [Bench.source_afterWait] at hfinal
    rw [Bench.afterWait_eq, Program.bind_of_ok _ (hfrequency _ _)] at h
    cases h
    exact ⟨start, first, last, final, k, hstart, hfirst,
      Source.waitsUntil_afterCounter_iff.1 hlast, hfinal, rfl, rfl⟩
  · rintro ⟨start, first, last, final, k, hstart, hfirst, hlast, hfinal, rfl, rfl⟩
    refine Program.bind_eq_ok_iff.2 ⟨start, _, Trial.readTimer_eq_ok_iff.2 ⟨hstart, rfl⟩, ?_⟩
    refine Program.bind_eq_ok_iff.2 ⟨first, _, Trial.readCounter_eq_ok_iff.2 ⟨hfirst, rfl⟩, ?_⟩
    refine Program.bind_eq_ok_iff.2 ⟨last, _, spinUntil_eq_ok_iff.2 ⟨k,
      Source.waitsUntil_afterCounter_iff.2 hlast, rfl⟩, ?_⟩
    rw [← Bench.source_afterWait] at hfinal
    refine Program.bind_eq_ok_iff.2 ⟨final, _, Trial.readCounter_eq_ok_iff.2 ⟨hfinal, rfl⟩, ?_⟩
    rw [Bench.afterWait_eq, Program.bind_of_ok _ (hfrequency _ _)]
    rfl

theorem calibrateFor_eq_ok_iff {waitMs : UInt64} {r : Calibration} {b b' : Bench} :
    (calibrateFor waitMs : Trial Calibration) b = (.ok r, b') ↔
      ∃ start first last final k,
        b.source.timerAt 0 = some start ∧
        (b.source.afterTimers 1).nextCounter = some first ∧
        (b.source.afterTimers 1).WaitsUntil start (waitTicks b.source.frequency waitMs) start k last ∧
        (b.source.afterTimers (k + 1)).afterCounter.nextCounter = some final ∧
        r = .ofSpans b.source.frequency ⟨start, last⟩ ⟨first, final⟩ ∧
        b' = ⟨(b.source.afterTimers (k + 1)).afterCounter.afterCounter,
          b.reads ++ #[.timer, .counter] ++ Array.replicate k .timer ++ #[.counter],
          b.records.push (r.logRecord (waitTicks b.source.frequency waitMs) waitMs), b.memory⟩ := by
  rw [calibrateFor_apply]
  constructor
  · intro h
    split at h
    · cases h
    · rename_i timer counter b₁ hm
      obtain ⟨start, first, last, final, k, hstart, hfirst, hlast, hfinal, hspans, rfl⟩ :=
        measureBoth_eq_ok_iff.1 hm
      cases hspans
      cases h
      exact ⟨start, first, last, final, k, hstart, hfirst, hlast, hfinal, rfl, rfl⟩
  · rintro ⟨start, first, last, final, k, hstart, hfirst, hlast, hfinal, rfl, rfl⟩
    rw [measureBoth_eq_ok_iff.2
      ⟨start, first, last, final, k, hstart, hfirst, hlast, hfinal, rfl, rfl⟩]

end Chronometry
