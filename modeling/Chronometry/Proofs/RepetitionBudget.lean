import Chronometry.Proofs.LoopSections
import Chronometry.Proofs.RepetitionProtocol

/-! The budget of a repetition. It is given in seconds, kept in milliseconds and spent in timer ticks, and both
conversions are cut at the largest word. Main statement: on timers of at least 1000 Hz the two cuts together
are one cut of the ticks, and a repetition ends at the first look at the timer that finds these ticks passed. -/
namespace Chronometry

/-- A trial whose result, and the source it leaves, depend on the source alone. -/
def Trial.SourceOnly {α : Type} (x : Trial α) : Prop :=
  ∀ b b' : Bench, b.source = b'.source → (x b).1 = (x b').1 ∧ (x b).2.source = (x b').2.source

namespace Trial.SourceOnly
variable {α β : Type}

theorem pure (a : α) : SourceOnly (Pure.pure a : Trial α) := fun _ _ h => ⟨rfl, h⟩

theorem bind {x : Trial α} {f : α → Trial β} (hx : SourceOnly x) (hf : ∀ a, SourceOnly (f a)) :
    SourceOnly (x >>= f) := by
  intro b b' hb
  have h := hx b b' hb
  rcases hxb : x b with ⟨result, b₁⟩
  rcases hxb' : x b' with ⟨result', b₁'⟩
  rw [hxb, hxb'] at h
  obtain ⟨rfl, hsource⟩ := h
  cases result with
  | error cause =>
    rw [Program.bind_of_error f hxb, Program.bind_of_error f hxb']
    exact ⟨rfl, hsource⟩
  | ok a =>
    rw [Program.bind_of_ok f hxb, Program.bind_of_ok f hxb']
    exact hf a b₁ b₁' hsource

theorem read (probe : Probe) (next : Source → Option (UInt64 × Source)) :
    SourceOnly (Trial.read probe next) := by
  intro b b' hb
  simp only [Trial.read, Program.mk_apply, hb]
  cases next b'.source with
  | none => exact ⟨rfl, rfl⟩
  | some reading => exact ⟨rfl, rfl⟩

theorem advance (ns : UInt64) : SourceOnly (Trial.advance ns) :=
  fun _ _ hb => ⟨rfl, congrArg (Source.advance ns) hb⟩

end Trial.SourceOnly

namespace Repetition
open Trial (SourceOnly)
variable {work : Nat → Trial Unit}

theorem sourceOnly_loop (hwork : ∀ run, SourceOnly (work run)) (start target : UInt64) (n run : Nat)
    (stream : Statistics.Samples) : SourceOnly (loop work start target n run stream) := by
  induction n generalizing run stream with
  | zero => exact fun _ _ hb => ⟨rfl, hb⟩
  | succ n ih =>
    refine (SourceOnly.read _ _).bind fun begun => (hwork run).bind fun _ =>
      (SourceOnly.read _ _).bind fun ended => ?_
    dsimp only
    rcases (Statistics.Stream.update (Stamp.since ⟨ended⟩ ⟨begun⟩).count.toFloat).run stream with
      ⟨e | _, stream⟩
    · exact .pure _
    · refine (SourceOnly.read _ _).bind fun now => ?_
      split
      · exact .pure _
      · exact ih (run + 1) stream

/-- A repetition does not depend on what was read and recorded before it. -/
theorem sourceOnly_repeatFor (hwork : ∀ run, SourceOnly (work run)) (frequency budgetMs bytes : UInt64) :
    SourceOnly (repeatFor ⟨frequency, budgetMs, none⟩ bytes work) := by
  have hfrequency : SourceOnly (Clocks.frequency : Trial UInt64) :=
    fun _ _ hb => ⟨congrArg (fun s : Source => (.ok s.frequency : Except Halt UInt64)) hb, hb⟩
  have hpatience : SourceOnly (Clocks.patience : Trial Nat) :=
    fun _ _ hb => ⟨congrArg (fun s : Source => (.ok s.patience : Except Halt Nat)) hb, hb⟩
  refine hfrequency.bind fun _ => hpatience.bind fun patience => (SourceOnly.read _ _).bind fun start =>
    (sourceOnly_loop hwork start _ patience 0 .empty).bind ?_
  rintro (cause | stream)
  · exact .pure _
  · exact .pure _

section Runs
variable {r : Readings} {budgetMs bytes : UInt64} {budget n m k : Nat} {b : Bench}

/-- A report tells the number of runs as a word, and there is none if that word is zero. -/
theorem report_runs_iff {t : Tester} {runs : UInt64} :
    (∃ report, t.report bytes (r.stream k) = .ok report ∧ report.runs = runs) ↔
      runs ≠ 0 ∧ runs = .ofNat k := by
  constructor
  · rintro ⟨report, hreport, rfl⟩
    by_cases hcount : (r.stream k).count = 0
    · cases (t.report_of_count_eq_zero bytes hcount).symm.trans hreport
    · obtain ⟨report', hreport', hruns, -⟩ := t.report_of_count_ne_zero bytes hcount
      cases hreport.symm.trans hreport'
      rw [hruns]
      exact ⟨hcount, r.count_stream k⟩
  · rintro ⟨hne, rfl⟩
    rw [← r.count_stream] at hne ⊢
    obtain ⟨report, hreport, hruns, -⟩ := t.report_of_count_ne_zero bytes hne
    exact ⟨report, hreport, hruns⟩

/-- A repetition reports a number of runs if and only if it is not zero and the first look that finds the
budget used up is the one after so many runs, up to a multiple of `2 ^ 64`, and the readings last until
then. -/
theorem repeatFor_runs_iff (hbudget : (waitTicks r.frequency budgetMs).toNat = budget)
    (frequency bytes : UInt64) {runs : UInt64} (hwork : Returns work) (honly : ∀ run, SourceOnly (work run)) (hb : b.source = r.script n m 0 0) :
    (∃ report b', repeatFor ⟨frequency, budgetMs, none⟩ bytes work b = (.ok (.ok report), b') ∧
        report.runs = runs) ↔
      runs ≠ 0 ∧ ∃ k, IsLeast {i | Used r budget i} k ∧ k < n ∧ 2 * k ≤ m ∧ runs = .ofNat k := by
  have hsame : (repeatFor ⟨frequency, budgetMs, none⟩ bytes work b).1 =
      (repeatFor ⟨frequency, budgetMs, none⟩ bytes work (.ofSource (r.script n m 0 0))).1 :=
    (sourceOnly_repeatFor honly frequency budgetMs bytes b _ hb).1
  constructor
  · rintro ⟨report, b', hrun, hruns⟩
    rw [hrun] at hsame
    obtain ⟨k, hleast, hn, hm⟩ := exists_least_of_ended hbudget hwork hsame.symm
    have hreport := Except.ok.inj
      (hsame.trans (fst_repeatFor_of_least hbudget frequency bytes hwork hleast hn hm))
    obtain ⟨hne, hk⟩ := report_runs_iff.1 ⟨report, hreport.symm, hruns⟩
    exact ⟨hne, k, hleast, hn, hm, hk⟩
  · rintro ⟨hne, k, hleast, hn, hm, hk⟩
    obtain ⟨report, hreport, hruns⟩ := report_runs_iff.2 ⟨hne, hk⟩
    have hrun := hsame.trans (fst_repeatFor_of_least hbudget frequency bytes hwork hleast hn hm)
    rw [hreport] at hrun
    exact ⟨report, _, Program.eq_of_fst_eq hrun, hruns⟩

end Runs

end Repetition

namespace Command
variable {F : UInt64}

/-- The two cuts together are one cut of the ticks. -/
theorem toNat_budget (hF : 1000 ≤ F) (S : UInt64) :
    (waitTicks F (budgetMs S)).toNat = min (2 ^ 64 - 1) (F.toNat * S.toNat) := by
  have hF : 1000 ≤ F.toNat := UInt64.le_iff_toNat_le.1 hF
  have hms : (budgetMs S).toNat = min (S.toNat * 1000) (2 ^ 64 - 1) := Word.toNat_mul S 1000
  rw [toNat_waitTicks, hms]
  rcases Nat.le_total (S.toNat * 1000) (2 ^ 64 - 1) with huncut | hcut
  · rw [Nat.min_eq_left huncut, ← Nat.mul_assoc, Nat.mul_div_cancel _ (by decide)]
  · -- If the milliseconds are cut, the ticks have to be cut too, before and after.
    have hticks : 2 ^ 64 - 1 ≤ F.toNat * (2 ^ 64 - 1) / 1000 := by
      rw [Nat.le_div_iff_mul_le (by decide), Nat.mul_comm]
      exact Nat.mul_le_mul_right _ hF
    have hdirect : S.toNat * 1000 ≤ F.toNat * S.toNat := by
      rw [Nat.mul_comm]
      exact Nat.mul_le_mul_right _ hF
    rw [Nat.min_eq_right hcut, Nat.min_eq_left hticks, Nat.min_eq_left (hcut.trans hdirect)]

/-- On a slower timer the largest number of milliseconds has fewer ticks than a word can hold. -/
theorem exists_shorter_budget_iff :
    (∃ S, (waitTicks F (budgetMs S)).toNat < min (2 ^ 64 - 1) (F.toNat * S.toNat)) ↔ 0 < F ∧ F < 1000 := by
  constructor
  · rintro ⟨S, hshorter⟩
    refine ⟨UInt64.pos_iff_ne_zero.2 ?_, UInt64.not_le.1 fun hF => ?_⟩
    · rintro rfl
      simp at hshorter
    · rw [toNat_budget hF] at hshorter
      exact Nat.lt_irrefl _ hshorter
  · rintro ⟨hpos, hslow⟩
    have hpos : 0 < F.toNat := UInt64.lt_iff_toNat_lt.1 hpos
    have hslow : F.toNat < 1000 := UInt64.lt_iff_toNat_lt.1 hslow
    refine ⟨.ofNat (2 ^ 64 - 1), ?_⟩
    have hms : (budgetMs (.ofNat (2 ^ 64 - 1))).toNat = 2 ^ 64 - 1 := by decide
    have hS : (UInt64.ofNat (2 ^ 64 - 1)).toNat = 2 ^ 64 - 1 := by decide
    rw [toNat_waitTicks, hms, hS]
    omega

section Run
variable {α β : Type} {b b₁ b' : Bench}

theorem run_bind_eq_ok_iff {x : ExceptT Refusal Trial α} {f : α → ExceptT Refusal Trial β} {c : β} :
    (x >>= f).run b = (.ok (.ok c), b') ↔
      ∃ a b₁, x.run b = (.ok (.ok a), b₁) ∧ (f a).run b₁ = (.ok (.ok c), b') := by
  constructor
  · intro h
    rcases hx : x.run b with ⟨cause | refusal | a, b₁⟩
    · cases (Program.bind_of_error (ExceptT.bindCont f) hx).symm.trans h
    · cases (run_bind_of_refused f hx).symm.trans h
    · exact ⟨a, b₁, rfl, (run_bind_of_ok f hx).symm.trans h⟩
  · rintro ⟨a, b₁, hx, h⟩
    exact (run_bind_of_ok f hx).trans h

theorem run_reserve_eq_ok_iff {bytes : UInt64} {u : Unit} :
    (reserve bytes : ExceptT Refusal Trial Unit).run b = (.ok (.ok u), b') ↔
      Fits b (some bytes) ∧ b' = b := by
  constructor
  · intro h
    by_cases hfits : Fits b (some bytes)
    · cases (run_reserve_of_fits hfits).symm.trans h
      exact ⟨hfits, rfl⟩
    · cases (run_reserve_of_not_fits hfits).symm.trans h
  · rintro ⟨hfits, rfl⟩
    exact run_reserve_of_fits hfits

theorem run_report_eq_ok_iff {x : Trial (Except Repetition.Failure Repetition.Report)}
    {report : Repetition.Report} :
    (do
        match ← (x : Trial _) with
        | .error (.statistics cause) => throw (.statistics cause)
        | .error .intervalTooLong => throw .intervalTooLong
        | .ok report => return report : ExceptT Refusal Trial Repetition.Report).run b =
        (.ok (.ok report), b') ↔
      x b = (.ok (.ok report), b') := by
  rw [run_bind_eq_ok_iff]
  constructor
  · rintro ⟨result, b₁, hlift, h⟩
    obtain ⟨result', hx, hresult⟩ := Program.map_eq_ok_iff.1 hlift
    cases hresult
    rcases result with (cause | _) | report'
    · cases h
    · cases h
    · cases h
      exact hx
  · intro hx
    exact ⟨.ok report, b', Program.map_of_ok Except.ok hx, rfl⟩

variable {counter : CounterOptions} {options : CalibrationOptions} {calibration : Calibration}
  {bytes S : UInt64} {interval : Option Duration} {report : Repetition.Report}

/-- After a calibration the command returns what the repetition returns, if it gets that far. -/
theorem run_measureRepetition_eq_ok_iff {s : Script}
    (hcalibration : (calibrateCounter counter options : ExceptT Refusal Trial _).run b =
      (.ok (.ok calibration), b₁)) (hb₁ : b₁.source = .script s) :
    (measureRepetition counter options bytes S interval : ExceptT Refusal Trial _).run b =
        (.ok (.ok report), b') ↔
      (bytes ≠ 0 ∧ Fits b₁ (some bytes) ∧ Repetition.Timely interval) ∧
        Repetition.repeatFor ⟨calibration.estimate, budgetMs S, none⟩ bytes
          (fun _ => Trial.advance bytes) b₁ = (.ok (.ok report), b') := by
  unfold measureRepetition
  by_cases hbytes : bytes = 0
  · rw [if_pos hbytes]
    constructor
    · intro h
      cases h
    · rintro ⟨⟨hne, -⟩, -⟩
      exact absurd hbytes hne
  rw [if_neg hbytes, run_bind_eq_ok_iff]
  constructor
  · rintro ⟨calibration', b₂, hcalibration', hrest⟩
    cases hcalibration.symm.trans hcalibration'
    obtain ⟨_, b₂, hreserve, hreserved⟩ := run_bind_eq_ok_iff.1 hrest
    obtain ⟨hfits, rfl⟩ := run_reserve_eq_ok_iff.1 hreserve
    have hrun := run_report_eq_ok_iff.1 hreserved
    by_cases htimely : Repetition.Timely interval
    · rw [Repetition.repeatFor_of_timely hb₁ htimely] at hrun
      exact ⟨⟨hbytes, hfits, htimely⟩, hrun⟩
    · cases (Repetition.repeatFor_of_not_timely hb₁ htimely).symm.trans hrun
  · rintro ⟨⟨-, hfits, htimely⟩, hrun⟩
    have hreserve := (run_reserve_eq_ok_iff (u := ())).2 ⟨hfits, rfl⟩
    refine ⟨calibration, b₁, hcalibration, run_bind_eq_ok_iff.2 ⟨(), b₁, hreserve, ?_⟩⟩
    exact run_report_eq_ok_iff.2 ((Repetition.repeatFor_of_timely hb₁ htimely).trans hrun)

end Run

/-- The budget of a repetition of `S` seconds. On a timer of at least 1000 Hz, as both timers are, it is the
product of frequency and seconds, cut at the largest word once; on slower ones it can be shorter. Once the
calibration has succeeded, a repetition on arbitrary readings returns a report of some runs if and only if it
has a buffer that can be had, its log interval ends in time, the first look at the timer that finds this
budget used up is the one after run `k`, the readings last until then, and the runs are `k` as a word that is
not zero. -/
theorem repetition_budget (r : Readings) (S : UInt64) (hF : 1000 ≤ r.frequency) :
    let N := min (2 ^ 64 - 1) (r.frequency.toNat * S.toNat)
    (waitTicks r.frequency (budgetMs S)).toNat = N ∧
      (∀ timer : TimerChoice, 1000 ≤ timer.frequency) ∧
      (∀ F : UInt64, (∃ S : UInt64, (waitTicks F (budgetMs S)).toNat <
        min (2 ^ 64 - 1) (F.toNat * S.toNat)) ↔ 0 < F ∧ F < 1000) ∧
      ∀ (counter : CounterOptions) (options : CalibrationOptions) (bytes : UInt64)
        (interval : Option Duration) (b b₁ : Bench) (calibration : Calibration) (n m : Nat)
        (runs : UInt64),
        (calibrateCounter counter options : ExceptT Refusal Trial _).run b = (.ok (.ok calibration), b₁) →
        b₁.source = r.script n m 0 0 →
        ((∃ report b₂, (measureRepetition counter options bytes S interval : ExceptT Refusal Trial _).run b =
            (.ok (.ok report), b₂) ∧ report.runs = runs) ↔
          (bytes ≠ 0 ∧ Fits b₁ (some bytes) ∧ Repetition.Timely interval) ∧ runs ≠ 0 ∧
            ∃ k, IsLeast {i | 1 ≤ i ∧ N ≤ (r.timer i).toNat - (r.timer 0).toNat} k ∧ k < n ∧
              2 * k ≤ m ∧ runs = .ofNat k) := by
  intro N
  have hbudget := toNat_budget hF S
  refine ⟨hbudget, ?_, fun F => exists_shorter_budget_iff, ?_⟩
  · intro timer
    cases timer <;> decide
  · intro counter options bytes interval b b₁ calibration n m runs hcalibration hb₁
    have hwork : Repetition.Returns fun _ => Trial.advance bytes := by
      intro run b script hb
      refine ⟨_, rfl, ?_⟩
      simp [hb, Source.advance]
    have hruns := @Repetition.repeatFor_runs_iff _ r (budgetMs S) N n m b₁ hbudget calibration.estimate
      bytes runs hwork (fun _ => .advance bytes) hb₁
    simp only [run_measureRepetition_eq_ok_iff hcalibration hb₁]
    constructor
    · rintro ⟨report, b₂, ⟨hstart, hrun⟩, rfl⟩
      exact ⟨hstart, hruns.1 ⟨report, b₂, hrun, rfl⟩⟩
    · rintro ⟨hstart, hleast⟩
      obtain ⟨report, b₂, hrun, hreported⟩ := hruns.2 hleast
      exact ⟨report, b₂, ⟨hstart, hrun⟩, hreported⟩

/-- Seconds whose milliseconds and whose ticks are both cut, on the slowest timer that loses nothing. The look
after the first run finds one tick of the budget left. -/
theorem repetition_budget_both_cut :
    let r : Readings := ⟨1000, fun i => [0, 18446744073709551614, 18446744073709551615].getD i 0,
      fun j => [30, 40, 50, 90].getD j 0, none⟩
    let b := Bench.ofSource (.script ⟨1000, [5, 6, 0, 18446744073709551614, 18446744073709551615],
      [10, 20, 30, 40, 50, 90], none⟩)
    let calibrated := (calibrateCounter {} ⟨1, 10⟩ : ExceptT Refusal Trial _).run b
    let measured :=
      (measureRepetition {} ⟨1, 10⟩ 64 18446744073709551615 none : ExceptT Refusal Trial _).run b
    1000 ≤ r.frequency ∧ calibrated = (.ok (.ok ⟨10, 1, 1000, 10000⟩), calibrated.2) ∧
      calibrated.2.source = r.script 3 4 0 0 ∧
      (waitTicks 1000 (budgetMs 18446744073709551615)).toNat = 2 ^ 64 - 1 ∧
      ∃ report b₂, measured = (.ok (.ok report), b₂) ∧ report.runs = 2 := by
  intro r b calibrated measured
  have hcalibrated : calibrated = (.ok (.ok ⟨10, 1, 1000, 10000⟩), calibrated.2) :=
    eq_of_answer (by decide +kernel)
  have hsource : calibrated.2.source = r.script 3 4 0 0 := by decide +kernel
  have hmemory : calibrated.2.memory = addressSpace := by decide +kernel
  have hN : min (2 ^ 64 - 1) (r.frequency.toNat * (18446744073709551615 : UInt64).toNat) = 2 ^ 64 - 1 := by
    decide
  have hbuffer : Fits calibrated.2 (some 64) := by
    intro bytes hbytes
    cases hbytes
    rw [hmemory]
    decide
  have hleast : IsLeast {i | 1 ≤ i ∧ 2 ^ 64 - 1 ≤ (r.timer i).toNat - (r.timer 0).toNat} 2 := by
    refine ⟨by decide, ?_⟩
    rintro i ⟨hi, hused⟩
    by_contra hlt
    obtain rfl : i = 1 := by omega
    exact absurd hused (by decide)
  obtain ⟨hbudget, -, -, hends⟩ := repetition_budget r 18446744073709551615 (by decide)
  rw [hN] at hbudget
  simp only [hN] at hends
  refine ⟨by decide, hcalibrated, hsource, hbudget, ?_⟩
  exact (hends {} ⟨1, 10⟩ 64 none b _ _ 3 4 2 hcalibrated hsource).2
    ⟨⟨by decide, hbuffer, fun d hd => absurd hd (Option.not_mem_none d)⟩, by decide, 2, hleast, by decide,
      by decide, rfl⟩

end Command

end Chronometry
