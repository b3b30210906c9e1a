import Chronometry.Proofs.FiniteConversion
import Chronometry.Proofs.Measuring
import Chronometry.Proofs.SampleStream
import Chronometry.Proofs.Tracing

/-! Repetitions on arbitrary readings. Main statement: when a repetition ends, what it reads and when it
does its work, and that the statistics are those of the ticks of all runs in order. -/
namespace Chronometry

namespace Statistics.Stream

theorem run_update_toFloat (w : UInt64) (s : Samples) :
    (update w.toFloat).run s = (.ok (), s.push w.toFloat) := by
  rw [run_update, if_pos (Binary64.isFinite_toFloat w)]

theorem run_forM_update (words : List UInt64) (s : Samples) :
    ((words.map UInt64.toFloat).forM update).run s =
      (.ok (), (words.map UInt64.toFloat).foldl push s) := by
  induction words generalizing s with
  | nil => rfl
  | cons w words ih =>
    exact (Program.bind_of_ok _ (run_update_toFloat w s)).trans (ih (s.push w.toFloat))

end Statistics.Stream

namespace Traced
variable {α β : Type}

def Agrees (x : Traced α) (y : Trial α) : Prop := ∀ b, (x b).1 = y b

namespace Agrees

theorem note (y : Trial α) (acts : α → Trace) : Agrees (Traced.note y acts) y := by
  intro b
  unfold Traced.note
  rcases y b with ⟨_ | _, _⟩
  · rfl
  · rfl

theorem pure (a : α) : Agrees (Pure.pure a) (Pure.pure a) := fun _ => rfl

theorem bind {x : Traced α} {y : Trial α} {f : α → Traced β} {g : α → Trial β} (h : Agrees x y)
    (hf : ∀ a, Agrees (f a) (g a)) : Agrees (x >>= f) (y >>= g) := by
  intro b
  have hxy := h b
  rcases hx : x b with ⟨⟨result, b₁⟩, acts⟩
  rw [hx] at hxy
  cases result with
  | error cause => rw [Traced.bind_of_error f hx, Program.bind_of_error g hxy.symm]
  | ok a => rw [Traced.bind_of_ok f hx, Program.bind_of_ok g hxy.symm, hf a b₁]

theorem ite {P : Prop} [Decidable P] {x₁ x₂ : Traced α} {y₁ y₂ : Trial α} (h₁ : Agrees x₁ y₁)
    (h₂ : Agrees x₂ y₂) : Agrees (if P then x₁ else x₂) (if P then y₁ else y₂) := by
  split
  · exact h₁
  · exact h₂

theorem frequency : Agrees (Clocks.frequency : Traced UInt64) Clocks.frequency := note _ _

theorem patience : Agrees (Clocks.patience : Traced Nat) Clocks.patience := note _ _

theorem readTimer : Agrees (Clocks.readTimer : Traced UInt64) Clocks.readTimer := note _ _

theorem readCounter : Agrees (Clocks.readCounter : Traced UInt64) Clocks.readCounter := note _ _

end Agrees

end Traced

/-- The readings that a timer and a counter would give, without end. -/
structure Readings where
  frequency : UInt64
  timer : Nat → UInt64
  counter : Nat → UInt64
  reported : Option UInt64

namespace Readings
variable {n m i j : Nat}

/-- A script with the first `n` timer readings and the first `m` counter readings, of which `i` and `j`
have been taken. -/
def script (r : Readings) (n m i j : Nat) : Source :=
  .script ⟨r.frequency, ((List.range n).map r.timer).drop i, ((List.range m).map r.counter).drop j,
    r.reported⟩

theorem timerAt_script (r : Readings) (n m i j : Nat) :
    (r.script n m i j).timerAt 0 = if i < n then some (r.timer i) else none := by
  change (((List.range n).map r.timer).drop i)[0]? = _
  by_cases h : i < n <;> simp [h]

theorem nextCounter_script (r : Readings) (n m i j : Nat) :
    (r.script n m i j).nextCounter = if j < m then some (r.counter j) else none := by
  change (((List.range m).map r.counter).drop j).head? = _
  by_cases h : j < m <;> simp [h]

section Taken
variable {r : Readings} {b : Bench}

theorem source_afterTimers (hb : b.source = r.script n m i j) :
    (b.afterTimers 1).source = r.script n m (i + 1) j := by
  change b.source.afterTimers 1 = _
  rw [hb]
  simp [script, Source.afterTimers]

theorem source_afterCounter (hb : b.source = r.script n m i j) :
    b.afterCounter.source = r.script n m i (j + 1) := by
  change b.source.afterCounter = _
  rw [hb]
  simp [script, Source.afterCounter]

end Taken

/-- The ticks of one run: those between its two counter readings, none if the counter went back. -/
def ticks (r : Readings) (run : Nat) : UInt64 :=
  Word.sub (r.counter (2 * run + 1)) (r.counter (2 * run))

/-- The stream of the ticks of the first `k` runs. -/
def stream (r : Readings) (k : Nat) : Statistics.Samples :=
  ((List.range k).map fun i => (r.ticks i).toFloat).foldl Statistics.Stream.push .empty

theorem run_forM_ticks (r : Readings) (k : Nat) :
    (((List.range k).map fun i => (r.ticks i).toFloat).forM Statistics.Stream.update).run .empty =
      (.ok (), r.stream k) := by
  have hsamples : ((List.range k).map fun i => (r.ticks i).toFloat) =
      ((List.range k).map r.ticks).map UInt64.toFloat := by
    rw [List.map_map]
    rfl
  rw [stream, hsamples, Statistics.Stream.run_forM_update]

theorem count_stream (r : Readings) (k : Nat) : (r.stream k).count = .ofNat k := by
  rw [stream, Statistics.Stream.count_foldl_push_empty, List.length_map, List.length_range]

/-- One round of a repetition: its work stands between two counter readings, and then the budget is
looked at. -/
def round (r : Readings) (marks : Nat → Trace) (run : Nat) : Trace :=
  .read .counter (r.counter (2 * run)) :: marks run ++
    [.read .counter (r.counter (2 * run + 1)), .read .timer (r.timer (run + 1))]

end Readings

namespace Repetition

/-- Work that returns and takes no readings. -/
def Returns (work : Nat → Trial Unit) : Prop :=
  ∀ run b script, b.source = .script script → ∃ b', work run b = (.ok (), b') ∧ b'.source = b.source

/-- The work with a mark for each of its calls. -/
def marked (work : Nat → Trial Unit) (marks : Nat → Trace) (run : Nat) : Traced Unit :=
  Traced.note (work run) fun _ => marks run

section Agreement
open Traced (Agrees)

theorem agrees_loop (work : Nat → Trial Unit) (marks : Nat → Trace) (start target : UInt64)
    (n run : Nat) (stream : Statistics.Samples) :
    Agrees (loop (marked work marks) start target n run stream)
      (loop work start target n run stream) := by
  induction n generalizing run stream with
  | zero => exact .note _ _
  | succ n ih =>
    apply Agrees.readCounter.bind
    intro begun
    apply (Agrees.note (work run) _).bind
    intro _
    apply Agrees.readCounter.bind
    intro ended
    dsimp only
    rcases (Statistics.Stream.update (Stamp.since ⟨ended⟩ ⟨begun⟩).count.toFloat).run stream with
      ⟨e | _, stream⟩
    · exact .pure _
    · apply Agrees.readTimer.bind
      intro now
      exact .ite (.pure _) (ih (run + 1) stream)

theorem agrees_repeatFor (t : Tester) (bytes : UInt64) (work : Nat → Trial Unit)
    (marks : Nat → Trace) :
    Agrees (repeatFor t bytes (marked work marks)) (repeatFor t bytes work) := by
  have hlog : Agrees (endsInTime t.logInterval) (endsInTime t.logInterval) :=
    fun b => (traces_endsInTime t.logInterval b).1
  apply Agrees.frequency.bind
  intro frequency
  apply hlog.bind
  intro inTime
  refine .ite ?_ (.pure _)
  apply Agrees.patience.bind
  intro patience
  apply Agrees.readTimer.bind
  intro start
  apply (agrees_loop work marks start _ patience 0 .empty).bind
  rintro (cause | stream)
  · exact .pure _
  · exact .pure _

end Agreement

section Log
variable {b : Bench} {s : Script} {t : Tester} {bytes : UInt64} {work : Nat → Trial Unit}

/-- The interval ends at an instant of a clock that has just started. -/
def Timely (interval : Option Duration) : Prop := ∀ d ∈ interval, d.nanoseconds < 2 ^ 63 * 10 ^ 9

/-- No time passes on a script, so an interval ends after its own length. -/
theorem endsInTime_script (hb : b.source = .script s) (interval : Option Duration) :
    ∃ inTime, (endsInTime interval : Trial Bool) b = (.ok inTime, b) ∧
      (inTime = true ↔ Timely interval) := by
  cases interval with
  | none => exact ⟨true, rfl, iff_of_true rfl fun d hd => absurd hd (Option.not_mem_none d)⟩
  | some d =>
    have hinstant : (Worker.instant : Trial Duration) b = (.ok .zero, b) := by
      obtain ⟨source, reads, records, memory⟩ := b
      cases hb
      rfl
    refine ⟨_, Program.bind_of_ok _ hinstant, ?_⟩
    simp [Duration.isInstant, Duration.zero, Timely]

theorem repeatFor_of_timely (hb : b.source = .script s) (h : Timely t.logInterval) :
    repeatFor t bytes work b = repeatFor ⟨t.frequency, t.budgetMs, none⟩ bytes work b := by
  have hfrequency : (Clocks.frequency : Trial UInt64) b = (.ok b.source.frequency, b) := rfl
  obtain ⟨inTime, hlog, htimely⟩ := endsInTime_script hb t.logInterval
  rw [htimely.2 h] at hlog
  unfold repeatFor
  rw [Program.bind_of_ok _ hfrequency, Program.bind_of_ok _ hfrequency, Program.bind_of_ok _ hlog]
  rfl

theorem repeatFor_of_not_timely (hb : b.source = .script s) (h : ¬ Timely t.logInterval) :
    repeatFor t bytes work b = (.ok (.error .intervalTooLong), b) := by
  have hfrequency : (Clocks.frequency : Trial UInt64) b = (.ok b.source.frequency, b) := rfl
  obtain ⟨inTime, hlog, htimely⟩ := endsInTime_script hb t.logInterval
  rw [Bool.eq_false_iff.2 (mt htimely.1 h)] at hlog
  unfold repeatFor
  rw [Program.bind_of_ok _ hfrequency, Program.bind_of_ok _ hlog]
  rfl

end Log

namespace Tester
variable {t : Tester} {bytes : UInt64} {stream : Statistics.Samples}

theorem report_of_count_ne_zero (t : Tester) (bytes : UInt64) (h : stream.count ≠ 0) :
    ∃ report, t.report bytes stream = .ok report ∧ report.runs = stream.count ∧
      report.frequency = t.frequency ∧ report.bytes = bytes ∧ stream.summary = .ok report.ticks := by
  obtain ⟨summary, hsummary, hcount⟩ := Statistics.Stream.summary_of_count_ne_zero h
  refine ⟨⟨summary, t.frequency, bytes⟩, ?_, hcount, rfl, rfl, hsummary⟩
  rw [report, hsummary]

theorem report_of_count_eq_zero (t : Tester) (bytes : UInt64) (h : stream.count = 0) :
    t.report bytes stream = .error (.statistics .empty) := by
  rw [report, stream.summary_eq_empty_iff.2 (stream.isEmpty_iff.2 h)]

/-- A finished stream fails only by its count. -/
theorem eq_of_report_eq_error {e : Failure} (h : t.report bytes stream = .error e) :
    e = .statistics .empty ∧ stream.count = 0 := by
  by_cases hcount : stream.count = 0
  · cases (t.report_of_count_eq_zero bytes hcount).symm.trans h
    exact ⟨rfl, hcount⟩
  · obtain ⟨report, hreport, -⟩ := t.report_of_count_ne_zero bytes hcount
    cases hreport.symm.trans h

end Tester

/-- Fewer than `2 ^ 64` runs, and at least one, have a report. -/
theorem report_stream (r : Readings) {k : Nat} (t : Tester) (bytes : UInt64) (hk : 1 ≤ k)
    (hlt : k < 2 ^ 64) :
    ∃ report, t.report bytes (r.stream k) = .ok report ∧ report.runs.toNat = k ∧
      report.frequency = t.frequency ∧ report.bytes = bytes ∧
      (r.stream k).summary = .ok report.ticks := by
  have hcount : (r.stream k).count ≠ 0 := by
    rw [r.count_stream, ne_eq, Word.ofNat_eq_zero_iff]
    exact Nat.not_dvd_of_pos_of_lt hk hlt
  obtain ⟨report, hreport, hruns, hreported⟩ := t.report_of_count_ne_zero bytes hcount
  refine ⟨report, hreport, ?_, hreported⟩
  rw [hruns, r.count_stream, UInt64.toNat_ofNat_of_lt' hlt]

/-- There are readings for one round, and its work returns; `sources` are the sources before each round. -/
structure Supplied (r : Readings) (work : Nat → Trial Unit) (sources : Nat → Source) (run : Nat) :
    Prop where
  first : (sources run).nextCounter = some (r.counter (2 * run))
  works : ∀ b, b.source = (sources run).afterCounter → ∃ b', work run b = (.ok (), b') ∧
    b'.source.nextCounter = some (r.counter (2 * run + 1)) ∧
    b'.source.afterCounter.timerAt 0 = some (r.timer (run + 1)) ∧
    b'.source.afterCounter.afterTimers 1 = sources (run + 1)

section Rounds
variable {r : Readings} {work : Nat → Trial Unit} {marks : Nat → Trace} {start target : UInt64}
variable {sources : Nat → Source} {n m run fuel : Nat} {stream : Statistics.Samples} {b : Bench}

theorem supplied_script (hwork : Returns work) (hn : run + 1 < n) (hm : 2 * run + 1 < m) :
    Supplied r work (fun i => r.script n m (i + 1) (2 * i)) run where
  first := by rw [Readings.nextCounter_script, if_pos (by omega)]
  works := by
    intro b hb
    have hb₁ : b.source = r.script n m (run + 1) (2 * run + 1) :=
      hb.trans (Readings.source_afterCounter (b := .ofSource _) rfl)
    obtain ⟨b', hrun, hsource⟩ := hwork run b _ hb₁
    have hb' := hsource.trans hb₁
    have hb₂ : b'.afterCounter.source = r.script n m (run + 1) (2 * (run + 1)) :=
      Readings.source_afterCounter hb'
    refine ⟨b', hrun, ?_, ?_, Readings.source_afterTimers hb₂⟩
    · rw [hb', Readings.nextCounter_script, if_pos hm]
    · change b'.afterCounter.source.timerAt 0 = _
      rw [hb₂, Readings.timerAt_script, if_pos hn]

theorem loop_round (h : Supplied r work sources run) (marks : Nat → Trace) (start target : UInt64)
    (fuel : Nat) (stream : Statistics.Samples) (hb : b.source = sources run) :
    let next := stream.push (r.ticks run).toFloat
    ∃ b', b'.source = sources (run + 1) ∧
      loop (marked work marks) start target (fuel + 1) run stream b =
        if target ≤ Word.sub (r.timer (run + 1)) start then
          ((.ok (.ok next), b'), r.round marks run)
        else
          let rest := loop (marked work marks) start target fuel (run + 1) next b'
          (rest.1, r.round marks run ++ rest.2) := by
  intro next
  have hfirst : b.source.nextCounter = some (r.counter (2 * run)) := by rw [hb, h.first]
  obtain ⟨b₂, hwork, hsecond, hnow, hb'⟩ := h.works b.afterCounter (congrArg Source.afterCounter hb)
  have hmarked : marked work marks run b.afterCounter = ((.ok (), b₂), marks run) := by
    rw [marked, Traced.note, hwork]
  have hupdate : (Statistics.Stream.update
      (Stamp.since ⟨r.counter (2 * run + 1)⟩ ⟨r.counter (2 * run)⟩).count.toFloat).run stream =
      (.ok (), next) := Statistics.Stream.run_update_toFloat _ stream
  refine ⟨b₂.afterCounter.afterTimers 1, hb', ?_⟩
  rw [loop, Traced.bind_of_ok _ (Traced.readCounter_of_some hfirst), Traced.bind_of_ok _ hmarked,
    Traced.bind_of_ok _ (Traced.readCounter_of_some hsecond)]
  dsimp only
  rw [hupdate]
  dsimp only
  rw [Traced.bind_of_ok _ (Traced.readTimer_of_some hnow)]
  by_cases hreached : target ≤ Word.sub (r.timer (run + 1)) start
  · simp only [if_pos hreached]
    rfl
  · simp only [if_neg hreached]
    simp [Readings.round]

/-- The rounds go on until the first one that finds the budget used up. -/
theorem loop_eq_ok {k : Nat} (hrounds : ∀ i, run ≤ i → i < k → Supplied r work sources i)
    (hb : b.source = sources run) (hrun : run < k) (hfuel : k ≤ run + fuel)
    (hreached : target ≤ Word.sub (r.timer k) start)
    (hbefore : ∀ i, run < i → i < k → Word.sub (r.timer i) start < target) :
    let runs := List.range' run (k - run)
    ∃ b', b'.source = sources k ∧ loop (marked work marks) start target fuel run stream b =
      ((.ok (.ok ((runs.map fun i => (r.ticks i).toFloat).foldl Statistics.Stream.push stream)), b'),
        runs.flatMap (r.round marks)) := by
  induction fuel generalizing run stream b with
  | zero => omega
  | succ fuel ih =>
    intro runs
    have hruns : runs = run :: List.range' (run + 1) (k - (run + 1)) := by
      have hlength : k - run = k - (run + 1) + 1 := by omega
      rw [show runs = List.range' run (k - run) from rfl, hlength, List.range'_succ]
    obtain ⟨b₁, hb₁, hround⟩ :=
      loop_round (hrounds run (Nat.le_refl run) hrun) marks start target fuel stream hb
    rw [hruns, List.map_cons, List.foldl_cons, List.flatMap_cons]
    by_cases hlast : run + 1 = k
    · subst hlast
      rw [if_pos hreached] at hround
      exact ⟨b₁, hb₁, by simpa using hround⟩
    · have hlt := hbefore (run + 1) (by omega) (by omega)
      rw [if_neg (UInt64.not_le.2 hlt)] at hround
      obtain ⟨b', hb', hrest⟩ := @ih (run + 1) (stream.push (r.ticks run).toFloat) b₁
        (fun i hi hik => hrounds i (by omega) hik) hb₁ (by omega) (by omega)
        fun i hi hik => hbefore i (by omega) hik
      refine ⟨b', hb', ?_⟩
      rw [hround, hrest]

/-- A repetition that ends has seen a timer reading for which the budget is used up, and has had the readings
for all rounds up to it. -/
theorem reached_of_loop {result : Except Statistics.Error Statistics.Samples} {b' : Bench}
    (hwork : Returns work) (hb : b.source = r.script n m (run + 1) (2 * run))
    (h : loop work start target fuel run stream b = (.ok result, b')) :
    ∃ k > run, (k < n ∧ 2 * k ≤ m) ∧ target ≤ Word.sub (r.timer k) start := by
  induction fuel generalizing run stream b with
  | zero => cases h
  | succ fuel ih =>
    rw [loop] at h
    obtain ⟨first, b₁, hfirst, h⟩ := Program.bind_eq_ok_iff.1 h
    obtain ⟨-, rfl⟩ := Trial.readCounter_eq_ok_iff.1 hfirst
    have hb₁ := Readings.source_afterCounter hb
    obtain ⟨b₂, hrun, hb₂⟩ := hwork run b.afterCounter _ hb₁
    rw [Program.bind_of_ok _ hrun] at h
    obtain ⟨second, b₃, hended, h⟩ := Program.bind_eq_ok_iff.1 h
    obtain ⟨hsecond, rfl⟩ := Trial.readCounter_eq_ok_iff.1 hended
    rw [hb₂.trans hb₁, Readings.nextCounter_script, Option.ite_none_right_eq_some] at hsecond
    obtain ⟨hm, -⟩ := hsecond
    have hb₃ : b₂.afterCounter.source = r.script n m (run + 1) (2 * (run + 1)) :=
      Readings.source_afterCounter (hb₂.trans hb₁)
    rw [Statistics.Stream.run_update_toFloat] at h
    obtain ⟨now, b₄, hread, h⟩ := Program.bind_eq_ok_iff.1 h
    obtain ⟨hnow, rfl⟩ := Trial.readTimer_eq_ok_iff.1 hread
    have hb₄ := Readings.source_afterTimers hb₃
    rw [hb₃, Readings.timerAt_script, Option.ite_none_right_eq_some] at hnow
    obtain ⟨hn, hnow⟩ := hnow
    split at h
    next hreached => exact ⟨run + 1, by omega, ⟨hn, hm⟩, by rwa [Option.some.inj hnow]⟩
    next =>
      obtain ⟨k, hk, hreached⟩ := ih hb₄ h
      exact ⟨k, by omega, hreached⟩

end Rounds

/-- The look at the timer after run `i` finds a budget of ticks used up. -/
def Used (r : Readings) (budget i : Nat) : Prop :=
  1 ≤ i ∧ budget ≤ (r.timer i).toNat - (r.timer 0).toNat

instance (r : Readings) (budget : Nat) : DecidablePred (Used r budget) :=
  fun i => inferInstanceAs (Decidable (1 ≤ i ∧ budget ≤ (r.timer i).toNat - (r.timer 0).toNat))

section Budget
variable {r : Readings} {work : Nat → Trial Unit} {frequency budgetMs bytes : UInt64} {n m : Nat}

theorem patience_script (r : Readings) (n m : Nat) : (r.script n m 0 0).patience = n + 1 := by
  simp [Readings.script, Source.patience]

theorem source_afterStart (r : Readings) (n m : Nat) :
    ((Bench.ofSource (r.script n m 0 0)).afterTimers 1).source = r.script n m 1 0 :=
  Readings.source_afterTimers rfl

/-- A repetition takes a timer reading, makes its rounds, and sums them up. -/
theorem repeatFor_of_rounds {source : Source} {sources : Nat → Source} {k : Nat}
    (frequency bytes : UInt64) (marks : Nat → Trace) (hrounds : ∀ i < k, Supplied r work sources i)
    (hfrequency : source.frequency = r.frequency) (hstart : source.timerAt 0 = some (r.timer 0))
    (hfirst : source.afterTimers 1 = sources 0) (hk : 1 ≤ k) (hpatience : k ≤ source.patience)
    (hreached : waitTicks r.frequency budgetMs ≤ Word.sub (r.timer k) (r.timer 0))
    (hbefore : ∀ i, 1 ≤ i → i < k →
      Word.sub (r.timer i) (r.timer 0) < waitTicks r.frequency budgetMs) :
    let t : Tester := ⟨frequency, budgetMs, none⟩
    ∃ b : Bench, b.source = sources k ∧
      repeatFor t bytes (marked work marks) (.ofSource source) =
        ((.ok (t.report bytes (r.stream k)), b),
          .read .timer (r.timer 0) :: (List.range k).flatMap (r.round marks)) := by
  intro t
  let b₀ := Bench.ofSource source
  obtain ⟨b, hb, hloop⟩ := @loop_eq_ok r work marks (r.timer 0) _ sources 0 source.patience .empty
    (b₀.afterTimers 1) k (fun i _ hi => hrounds i hi) hfirst hk (by omega) hreached hbefore
  rw [Nat.sub_zero, ← List.range_eq_range'] at hloop
  have hfrequency' : (Clocks.frequency : Traced UInt64) b₀ = ((.ok r.frequency, b₀), []) := by
    rw [← hfrequency]
    rfl
  have hlog : (endsInTime none : Traced Bool) b₀ = ((.ok true, b₀), []) := rfl
  have hpatience' : (Clocks.patience : Traced Nat) b₀ = ((.ok source.patience, b₀), []) := rfl
  refine ⟨b, hb, ?_⟩
  unfold repeatFor
  rw [Traced.bind_of_ok _ hfrequency', Traced.bind_of_ok _ hlog, if_pos rfl,
    Traced.bind_of_ok _ hpatience', Traced.bind_of_ok _ (Traced.readTimer_of_some hstart),
    Traced.bind_of_ok _ hloop]
  change ((_, b), [] ++ ([] ++ ([] ++ ([Act.read .timer (r.timer 0)] ++ (_ ++ []))))) = _
  rw [List.append_nil]
  rfl

theorem ended_of_repeatFor {result : Except Failure Report} {b : Bench} (hwork : Returns work)
    (h : repeatFor ⟨frequency, budgetMs, none⟩ bytes work (.ofSource (r.script n m 0 0)) =
      (.ok result, b)) :
    ∃ k ≥ 1, (k < n ∧ 2 * k ≤ m) ∧
      waitTicks r.frequency budgetMs ≤ Word.sub (r.timer k) (r.timer 0) := by
  let b₀ := Bench.ofSource (r.script n m 0 0)
  have hfrequency : (Clocks.frequency : Trial UInt64) b₀ = (.ok r.frequency, b₀) := rfl
  have hlog : (endsInTime none : Trial Bool) b₀ = (.ok true, b₀) := rfl
  have hpatience : (Clocks.patience : Trial Nat) b₀ = (.ok (n + 1), b₀) := by
    rw [← patience_script r n m]
    rfl
  unfold repeatFor at h
  rw [Program.bind_of_ok _ hfrequency, Program.bind_of_ok _ hlog, if_pos rfl,
    Program.bind_of_ok _ hpatience] at h
  obtain ⟨start, b₁, hread, h⟩ := Program.bind_eq_ok_iff.1 h
  obtain ⟨hstart, rfl⟩ := Trial.readTimer_eq_ok_iff.1 hread
  change (r.script n m 0 0).timerAt 0 = some start at hstart
  rw [Readings.timerAt_script, Option.ite_none_right_eq_some] at hstart
  obtain ⟨-, hstart⟩ := hstart
  cases hstart
  obtain ⟨stream, b₂, hloop, -⟩ := Program.bind_eq_ok_iff.1 h
  exact reached_of_loop hwork (source_afterStart r n m) hloop

section Least
variable {budget k : Nat} (hbudget : (waitTicks r.frequency budgetMs).toNat = budget)
include hbudget

theorem reached_iff (i : Nat) :
    waitTicks r.frequency budgetMs ≤ Word.sub (r.timer i) (r.timer 0) ↔
      budget ≤ (r.timer i).toNat - (r.timer 0).toNat := by
  rw [UInt64.le_iff_toNat_le, hbudget, Word.toNat_sub]

theorem repeatFor_of_least (frequency bytes : UInt64) (hwork : Returns work) (marks : Nat → Trace)
    (hk : IsLeast {i | Used r budget i} k) (hn : k < n) (hm : 2 * k ≤ m) :
    let t : Tester := ⟨frequency, budgetMs, none⟩
    ∃ b : Bench, repeatFor t bytes (marked work marks) (.ofSource (r.script n m 0 0)) =
      ((.ok (t.report bytes (r.stream k)), b),
        .read .timer (r.timer 0) :: (List.range k).flatMap (r.round marks)) := by
  have hstart : (r.script n m 0 0).timerAt 0 = some (r.timer 0) := by
    rw [Readings.timerAt_script, if_pos (by omega)]
  have hrounds : ∀ i < k, Supplied r work (fun i => r.script n m (i + 1) (2 * i)) i :=
    fun i hi => supplied_script hwork (by omega) (by omega)
  have hpatience : k ≤ (r.script n m 0 0).patience := by
    rw [patience_script]
    omega
  have hbefore : ∀ i, 1 ≤ i → i < k →
      Word.sub (r.timer i) (r.timer 0) < waitTicks r.frequency budgetMs := by
    intro i hi hik
    refine UInt64.not_le.1 fun hreached => ?_
    have hle : k ≤ i := hk.2 ⟨hi, (reached_iff hbudget i).1 hreached⟩
    omega
  obtain ⟨b, -, hrun⟩ := repeatFor_of_rounds frequency bytes marks hrounds rfl hstart
    (source_afterStart r n m) hk.1.1 hpatience ((reached_iff hbudget k).2 hk.1.2) hbefore
  exact ⟨b, hrun⟩

theorem fst_repeatFor_of_least (frequency bytes : UInt64) (hwork : Returns work)
    (hk : IsLeast {i | Used r budget i} k) (hn : k < n) (hm : 2 * k ≤ m) :
    let t : Tester := ⟨frequency, budgetMs, none⟩
    (repeatFor t bytes work (.ofSource (r.script n m 0 0))).1 = .ok (t.report bytes (r.stream k)) := by
  intro t
  obtain ⟨b, hwatched⟩ :=
    repeatFor_of_least hbudget frequency bytes hwork (fun _ => []) hk hn hm
  rw [← agrees_repeatFor t bytes work (fun _ => []), hwatched]

theorem exists_least_of_ended {result : Except Failure Report} (hwork : Returns work)
    (h : (repeatFor ⟨frequency, budgetMs, none⟩ bytes work (.ofSource (r.script n m 0 0))).1 =
      .ok result) :
    ∃ k, IsLeast {i | Used r budget i} k ∧ k < n ∧ 2 * k ≤ m := by
  obtain ⟨j, hj, hbounds, hreached⟩ := ended_of_repeatFor hwork (Program.eq_of_fst_eq h)
  have husedj : Used r budget j := ⟨hj, (reached_iff hbudget j).1 hreached⟩
  have hle : Nat.find ⟨j, husedj⟩ ≤ j := Nat.find_min' ⟨j, husedj⟩ husedj
  exact ⟨_, Nat.isLeast_find ⟨j, husedj⟩, by omega, by omega⟩

end Least

end Budget

/-- A repetition on arbitrary readings, of which a script holds the first `n` timer readings and the
first `m` counter readings; `marks` tell the calls of the work apart from the reads around them. It ends
if and only if some later timer reading is a whole budget past the first. Then it has made one round up to
the first such reading for each timer reading on the way, each with its work between its two counter
readings, and the report is that of a new stream which takes in the ticks of the runs in order. With fewer
than `2 ^ 64` runs there is such a report; at a multiple of that the count is back at zero, and the stream
counts as empty. A log interval changes nothing, unless it ends too late for the clock. -/
theorem repeatFor_protocol (frequency budgetMs bytes : UInt64) (r : Readings)
    (work : Nat → Trial Unit) (marks : Nat → Trace) (hwork : Returns work) :
    let N := min (2 ^ 64 - 1) (r.frequency.toNat * budgetMs.toNat / 1000)
    let used := fun i => 1 ≤ i ∧ N ≤ (r.timer i).toNat - (r.timer 0).toNat
    let tester := fun interval => (⟨frequency, budgetMs, interval⟩ : Tester)
    let run := fun n m => repeatFor (tester none) bytes work (.ofSource (r.script n m 0 0))
    let watched := fun n m =>
      repeatFor (tester none) bytes (marked work marks) (.ofSource (r.script n m 0 0))
    (∀ n m, (watched n m).1 = run n m) ∧
      (waitTicks r.frequency budgetMs).toNat = N ∧
      (∀ d n m, repeatFor (tester (some d)) bytes work (.ofSource (r.script n m 0 0)) =
        if d.nanoseconds < 2 ^ 63 * 10 ^ 9 then run n m
        else (.ok (.error .intervalTooLong), .ofSource (r.script n m 0 0))) ∧
      (∀ n m e, (run n m).1 = .ok (.error e) →
        e = .statistics .empty ∧ ∃ k, IsLeast {i | used i} k ∧ 2 ^ 64 ∣ k) ∧
      ((∃ n m result, (run n m).1 = .ok result) ↔ ∃ i, used i) ∧
      ∀ k, IsLeast {i | used i} k → ∀ n > k, ∀ m ≥ 2 * k, ∃ stream,
        (((List.range k).map fun i =>
            (Word.sub (r.counter (2 * i + 1)) (r.counter (2 * i))).toFloat).forM
          Statistics.Stream.update).run .empty = (.ok (), stream) ∧
        (run n m).1 = .ok ((tester none).report bytes stream) ∧
        (watched n m).2 =
          .read .timer (r.timer 0) :: ((List.range k).flatMap fun i =>
            .read .counter (r.counter (2 * i)) :: marks i ++
              [.read .counter (r.counter (2 * i + 1)), .read .timer (r.timer (i + 1))]) ∧
        (k < 2 ^ 64 → ∃ report, (run n m).1 = .ok (.ok report) ∧ report.runs.toNat = k ∧
          report.frequency = frequency ∧ report.bytes = bytes ∧
          stream.summary = .ok report.ticks) := by
  intro N used tester run watched
  have hagrees : ∀ n m, (watched n m).1 = run n m := fun n m =>
    agrees_repeatFor (tester none) bytes work marks _
  have hbudget : (waitTicks r.frequency budgetMs).toNat = N := toNat_waitTicks _ _
  have hreport : ∀ k, IsLeast {i | used i} k → ∀ n > k, ∀ m ≥ 2 * k,
      (run n m).1 = .ok ((tester none).report bytes (r.stream k)) :=
    fun k hk n hn m hm => fst_repeatFor_of_least hbudget frequency bytes hwork hk hn hm
  have hended : ∀ n m result, (run n m).1 = .ok result →
      ∃ k, IsLeast {i | used i} k ∧ k < n ∧ 2 * k ≤ m :=
    fun n m result hresult => exists_least_of_ended hbudget hwork hresult
  refine ⟨hagrees, hbudget, ?_, ?_, ⟨?_, ?_⟩, ?_⟩
  · intro d n m
    have htimely : Timely (some d) ↔ d.nanoseconds < 2 ^ 63 * 10 ^ 9 := by simp [Timely]
    by_cases hd : d.nanoseconds < 2 ^ 63 * 10 ^ 9
    · rw [if_pos hd]
      exact repeatFor_of_timely rfl (htimely.2 hd)
    · rw [if_neg hd]
      exact repeatFor_of_not_timely rfl (mt htimely.1 hd)
  · intro n m e herror
    obtain ⟨k, hk, hn, hm⟩ := hended n m _ herror
    obtain ⟨hempty, hcount⟩ :=
      Tester.eq_of_report_eq_error (Except.ok.inj ((hreport k hk n hn m hm).symm.trans herror))
    rw [r.count_stream, Word.ofNat_eq_zero_iff] at hcount
    exact ⟨hempty, k, hk, hcount⟩
  · rintro ⟨n, m, result, hresult⟩
    obtain ⟨k, hk, -⟩ := hended n m result hresult
    exact ⟨k, hk.1⟩
  · intro hused
    exact ⟨_, _, _, hreport _ (Nat.isLeast_find hused) _ (Nat.lt_succ_self _) _ le_rfl⟩
  · intro k hk n hn m hm
    obtain ⟨b, hwatched⟩ := repeatFor_of_least hbudget frequency bytes hwork marks hk hn hm
    have hrun := hreport k hk n hn m hm
    refine ⟨r.stream k, r.run_forM_ticks k, hrun, congrArg Prod.snd hwatched, fun hlt => ?_⟩
    obtain ⟨report, hok, hreported⟩ := report_stream r (tester none) bytes hk.1.1 hlt
    exact ⟨report, hrun.trans (congrArg Except.ok hok), hreported⟩

/-- A timer and a counter that both go back on the way. The budget of five timer ticks is used up at the
fourth timer reading, and the second run takes no ticks. -/
theorem repeatFor_protocol_backwards :
    let r : Readings :=
      ⟨1000, fun i => [10, 7, 12, 15].getD i 0, fun i => [100, 103, 90, 80, 200, 207].getD i 0, none⟩
    let work : Nat → Trial Unit := fun run => Trial.advance run.toUInt64
    let marks : Nat → Trace := fun run => [.advance run.toUInt64]
    let t : Tester := ⟨3000, 5, none⟩
    Returns work ∧ IsLeast {i | 1 ≤ i ∧ 5 ≤ (r.timer i).toNat - (r.timer 0).toNat} 3 ∧ ∃ report,
      (repeatFor t 64 work (.ofSource (r.script 4 6 0 0))).1 = .ok (.ok report) ∧
      (repeatFor t 64 (marked work marks) (.ofSource (r.script 4 6 0 0))).2 =
        [.read .timer 10,
          .read .counter 100, .advance 0, .read .counter 103, .read .timer 7,
          .read .counter 90, .advance 1, .read .counter 80, .read .timer 12,
          .read .counter 200, .advance 2, .read .counter 207, .read .timer 15] ∧
      report.runs.toNat = 3 := by
  intro r work marks t
  have hwork : Returns work := by
    intro run b script hb
    refine ⟨_, rfl, ?_⟩
    simp [hb, Source.advance]
  have hleast : IsLeast {i | 1 ≤ i ∧ 5 ≤ (r.timer i).toNat - (r.timer 0).toNat} 3 := by
    refine ⟨by decide, ?_⟩
    rintro i ⟨hi, hreached⟩
    by_contra hlt
    obtain rfl | rfl : i = 1 ∨ i = 2 := by omega
    · exact absurd hreached (by decide)
    · exact absurd hreached (by decide)
  obtain ⟨-, -, -, -, -, hends⟩ := repeatFor_protocol 3000 5 64 r work marks hwork
  have hbudget : min (2 ^ 64 - 1) (r.frequency.toNat * (5 : UInt64).toNat / 1000) = 5 := by decide
  simp only [hbudget] at hends
  obtain ⟨stream, -, -, htrace, hfew⟩ := hends 3 hleast 4 (by decide) 6 (by decide)
  obtain ⟨report, hreport, hruns, -⟩ := hfew (by decide)
  exact ⟨hwork, hleast, report, hreport, htrace, hruns⟩

end Repetition

end Chronometry
