import Chronometry.Proofs.ClockTime
import Chronometry.Proofs.SessionTrace
import Mathlib.Tactic.Ring

/-! The time of a simulated clock over a whole session, whatever the operations are. -/
namespace Chronometry

def Act.nanoseconds : Act → Nat
  | .read _ _ => 0
  | .advance ns => ns.toNat

namespace Trace

/-- All that the clock was advanced by, in nanoseconds. -/
def advanced (acts : Trace) : Nat := (acts.map Act.nanoseconds).sum

/-- The exact time that a trace takes, if each timer reading takes `step` nanoseconds. -/
def duration (step : UInt64) (acts : Trace) : Nat :=
  acts.advanced + step.toNat * acts.probes.count .timer

theorem mem_readings_iff {probe : Probe} {r : UInt64} {acts : Trace} :
    r ∈ acts.readings probe ↔ .read probe r ∈ acts := by
  have hact : ∀ act, Act.reading? probe act = some r ↔ act = .read probe r := by
    intro act
    cases act with
    | read probe' r' => simp [Act.reading?]
    | advance ns => simp [Act.reading?]
  simp [readings, List.mem_filterMap, hact]

theorem readings_read (probe probe' : Probe) (r : UInt64) (acts : Trace) :
    readings probe (.read probe' r :: acts) =
      if probe' = probe then r :: acts.readings probe else acts.readings probe := by
  by_cases h : probe' = probe <;> simp [readings, Act.reading?, h]

theorem duration_append (step : UInt64) (acts later : Trace) :
    duration step (acts ++ later) = acts.duration step + later.duration step := by
  simp only [duration, advanced, probes_append, List.map_append, List.sum_append, List.count_append]
  ring

theorem duration_advance (step ns : UInt64) (acts : Trace) :
    duration step (.advance ns :: acts) = ns.toNat + acts.duration step := by
  have hprobes : probes (.advance ns :: acts) = acts.probes := rfl
  simp [duration, advanced, hprobes, Act.nanoseconds, Nat.add_assoc]

end Trace

namespace Clock

def cost (c : Clock) : Probe → UInt64
  | .timer => c.step
  | .counter => 0

def rateOf (c : Clock) : Probe → UInt64
  | .timer => c.frequency
  | .counter => c.rate

theorem look_eq (c : Clock) (probe : Probe) :
    c.look probe = (scale (c.now + c.cost probe) (c.rateOf probe), c.advance (c.cost probe)) := by
  cases probe with
  | timer => rfl
  | counter => simp [look, cost, rateOf, readCounter, advance]

theorem snd_look (c : Clock) (probe : Probe) : (c.look probe).2 = c.advance (c.cost probe) := by
  rw [look_eq]

theorem duration_read (c : Clock) (probe : Probe) (r : UInt64) (acts : Trace) :
    Trace.duration c.step (.read probe r :: acts) = (c.cost probe).toNat + acts.duration c.step := by
  cases probe
  · simp [Trace.duration, Trace.advanced, Trace.probes, Act.nanoseconds, Act.probe?, cost]
    ring
  · simp [Trace.duration, Trace.advanced, Trace.probes, Act.nanoseconds, Act.probe?, cost]

theorem advance_time {c : Clock} {ns : UInt64} {acts : Trace}
    (hlt : c.now.toNat + Trace.duration c.step (.advance ns :: acts) < 2 ^ 64) :
    (c.advance ns).now.toNat + acts.duration (c.advance ns).step =
      c.now.toNat + Trace.duration c.step (.advance ns :: acts) := by
  rw [Trace.duration_advance] at hlt ⊢
  have hstep : (c.advance ns).step = c.step := rfl
  rw [hstep, toNat_now_advance (by omega), Nat.add_assoc]

theorem look_time {c : Clock} {probe : Probe} {r : UInt64} {acts : Trace}
    (hlt : c.now.toNat + Trace.duration c.step (.read probe r :: acts) < 2 ^ 64) :
    (c.look probe).2.now.toNat + acts.duration (c.look probe).2.step =
      c.now.toNat + Trace.duration c.step (.read probe r :: acts) := by
  have hcost : Trace.duration c.step (.read probe r :: acts) =
      Trace.duration c.step (.advance (c.cost probe) :: acts) := by
    rw [duration_read, Trace.duration_advance]
  rw [hcost] at hlt ⊢
  rw [snd_look]
  exact advance_time hlt

namespace Lives
variable {c c' : Clock} {acts before after : Trace} {probe : Probe} {r : UInt64}

/-- Time passes, and nothing else about the clock changes. -/
theorem exact_time (h : c.Lives acts c') (hlt : c.now.toNat + acts.duration c.step < 2 ^ 64) :
    c'.now.toNat = c.now.toNat + acts.duration c.step ∧ c'.cost = c.cost ∧ c'.rateOf = c.rateOf := by
  induction h with
  | nil c => exact ⟨rfl, rfl, rfl⟩
  | read probe _ ih =>
    have htime := look_time hlt
    rw [← htime] at hlt ⊢
    obtain ⟨hnow, hcost, hrate⟩ := ih hlt
    rw [snd_look] at hcost hrate
    exact ⟨hnow, hcost, hrate⟩
  | advance ns _ ih =>
    have htime := advance_time hlt
    rw [← htime] at hlt ⊢
    exact ih hlt

/-- A reading shows the exact time after the acts before it and its own cost. -/
theorem toNat_reading (h : c.Lives (before ++ .read probe r :: after) c')
    (hlt : c.now.toNat + Trace.duration c.step (before ++ .read probe r :: after) < 2 ^ 64) :
    r.toNat = min Word.maxNat ((c.now.toNat + before.duration c.step + (c.cost probe).toNat) *
      (c.rateOf probe).toNat / 10 ^ 9) := by
  rw [Trace.duration_append, duration_read] at hlt
  obtain ⟨d, hbefore, hrest⟩ := h.of_append
  obtain ⟨htime, hcost, hrate⟩ := hbefore.exact_time (by omega)
  cases hrest with
  | read probe hafter =>
    have hnow : (d.advance (d.cost probe)).now.toNat = d.now.toNat + (d.cost probe).toNat :=
      toNat_now_advance (by rw [hcost]; omega)
    have hsum : (d.now + d.cost probe).toNat =
        c.now.toNat + before.duration c.step + (c.cost probe).toNat := by
      rw [← htime, ← hcost]
      exact hnow
    rw [look_eq, scale, Word.toNat_clamp, hsum, hrate]
    exact Nat.min_comm _ _

/-- No reading is below what its view would have shown at the start. -/
theorem scale_le_of_mem (h : c.Lives acts c') (hlt : c.now.toNat + acts.duration c.step < 2 ^ 64)
    (hr : r ∈ acts.readings probe) : scale c.now (c.rateOf probe) ≤ r := by
  obtain ⟨before, after, rfl⟩ := List.append_of_mem (Trace.mem_readings_iff.1 hr)
  have hreading := h.toNat_reading hlt
  have hticks : c.now.toNat * (c.rateOf probe).toNat / 10 ^ 9 ≤
      (c.now.toNat + Trace.duration c.step before + (c.cost probe).toNat) *
        (c.rateOf probe).toNat / 10 ^ 9 :=
    Nat.div_le_div_right (Nat.mul_le_mul_right _ (by omega))
  rw [UInt64.le_iff_toNat_le, scale, Word.toNat_clamp, hreading]
  omega

theorem pairwise_readings (h : c.Lives acts c') (hlt : c.now.toNat + acts.duration c.step < 2 ^ 64)
    (probe : Probe) : (acts.readings probe).Pairwise (· ≤ ·) := by
  induction h with
  | nil => exact .nil
  | @read c c' acts probe' hrest ih =>
    rw [← look_time hlt] at hlt
    rw [Trace.readings_read]
    split
    next hprobe =>
      -- The time after this read is the time at which the rest starts, a lower bound for all of it.
      have hfirst : (c.look probe').1 =
          scale (c.look probe').2.now ((c.look probe').2.rateOf probe) := by
        rw [look_eq, hprobe]
        rfl
      refine List.pairwise_cons.2 ⟨fun r hr => ?_, ih hlt⟩
      rw [hfirst]
      exact hrest.scale_le_of_mem hlt hr
    next => exact ih hlt
  | advance ns _ ih =>
    rw [← advance_time hlt] at hlt
    exact ih hlt

end Lives

end Clock

namespace Session

/-- The time of a clock over any session in which the exact time fits a word. It moves by what the clock
is advanced by and by one step for each timer reading; each reading shows the exact time at which it is
made, the timer after its own step; so the readings of one view never go back, not even where they are
cut. The reads that the operations report are those of the trace, and so is a reading that is an answer. -/
theorem run_time_accounting (c : Clock) (operations : List Operation) :
    let s := ofSource (.clock c)
    let acts := s.trace operations
    let reads := (s.run operations).1.flatMap (·.reads)
    c.now.toNat + acts.duration c.step < 2 ^ 64 →
      (∃ now, (s.run operations).2.now? = some now ∧
        now.toNat = c.now.toNat + acts.advanced + c.step.toNat * reads.count .timer) ∧
      reads = acts.probes ∧
      (∀ (before : Trace) r after, acts = before ++ .read .timer r :: after →
        r.toNat = min (2 ^ 64 - 1)
          ((c.now.toNat + before.duration c.step + c.step.toNat) * c.frequency.toNat / 10 ^ 9)) ∧
      (∀ (before : Trace) r after, acts = before ++ .read .counter r :: after →
        r.toNat = min (2 ^ 64 - 1)
          ((c.now.toNat + before.duration c.step) * c.rate.toNat / 10 ^ 9)) ∧
      (∀ probe, (acts.readings probe).Pairwise (· ≤ ·)) ∧
      ∀ before operation after probe, operations = before ++ operation :: after →
        operation.shown? = some probe →
        ∃ r, ((s.run before).2.step operation).1.answer = .ok (.word r) ∧
          s.trace before ++ [.read probe r] <+: acts := by
  intro s acts reads hlt
  obtain ⟨c', hc', hlives, hreads⟩ := run_lives (s := s) rfl operations
  have hacts : c.Lives acts c' := hlives
  obtain ⟨hnow, -, -⟩ := hacts.exact_time hlt
  refine ⟨⟨c'.now, ?_, ?_⟩, hreads, ?_, ?_, hacts.pairwise_readings hlt, ?_⟩
  · rw [now?, hc']
  · rw [hnow, Trace.duration, ← hreads, Nat.add_assoc]
  · intro before r after hsplit
    rw [hsplit] at hlt hacts
    exact hacts.toNat_reading hlt
  · intro before r after hsplit
    rw [hsplit] at hlt hacts
    exact hacts.toNat_reading hlt
  · intro before operation after probe hsplit hshown
    obtain ⟨d, hd, -, -⟩ := run_lives (s := s) rfl before
    obtain ⟨r, hanswer, hact⟩ := step_shown hd hshown
    have hprefix : acts = s.trace before ++ [.read probe r] ++
        ((s.run before).2.step operation).2.trace after := by
      rw [← hact, List.append_assoc]
      exact (congrArg s.trace hsplit).trans (s.trace_append before (operation :: after))
    exact ⟨r, hanswer, _, hprefix.symm⟩

/-- A wait, a timed section and a stamp on a timer that stays at its greatest reading once it is there. -/
theorem run_time_accounting_saturated :
    let c : Clock := ⟨18446744073709551615, 500000000, 10, 5, none⟩
    let s := ofSource (.clock c)
    let operations : List Operation := [.readTimer, .measureBoth 300000000000, .newProfiler 0,
      .time 0 "pass" 3000000000, .readTimer, .stamp, .readTimer]
    let acts := s.trace operations
    c.now.toNat + acts.duration c.step < 2 ^ 64 ∧
      (s.run operations).2.now? = some 3000000065 ∧
      (3000000065 : UInt64).toNat = c.now.toNat + acts.advanced + c.step.toNat *
        ((s.run operations).1.flatMap (·.reads)).count .timer ∧
      acts.readings .timer = [276701161105, 461168601842, 645636042579, 830103483316,
        18446744073709551615, 18446744073709551615] ∧
      (∀ probe, (acts.readings probe).Pairwise (· ≤ ·)) := by
  intro c s operations acts
  have hlt : c.now.toNat + acts.duration c.step < 2 ^ 64 := by decide +kernel
  have hnow : (s.run operations).2.now? = some 3000000065 := by decide +kernel
  obtain ⟨⟨now, hnow', htime⟩, -, -, -, hmono, -⟩ := run_time_accounting c operations hlt
  obtain rfl : 3000000065 = now := Option.some.inj (hnow.symm.trans hnow')
  exact ⟨hlt, hnow, htime, by decide +kernel, hmono⟩

end Session

end Chronometry
