import Chronometry.Proofs.Measuring
import Chronometry.Proofs.Tracing
import Mathlib.Data.Nat.Find

/-! Waits of different lengths from one state of the clocks. Main statement: the timer readings of the
shorter calibration are the first of those of the longer one, which sees more of the timer if and only if
it reads more. The readings may go back: a wait compares each of them with its start, never with the one
before. -/
namespace Chronometry

theorem waitTicks_mono (frequency : UInt64) {short long : UInt64} (h : short ≤ long) :
    waitTicks frequency short ≤ waitTicks frequency long := by
  have hms : short.toNat ≤ long.toNat := UInt64.le_iff_toNat_le.1 h
  have hticks : frequency.toNat * short.toNat / 1000 ≤ frequency.toNat * long.toNat / 1000 :=
    Nat.div_le_div_right (Nat.mul_le_mul_left _ hms)
  rw [UInt64.le_iff_toNat_le, toNat_waitTicks, toNat_waitTicks]
  omega

namespace Source
variable {s : Source} {start last target short long r₁ r₂ : UInt64} {k₁ k₂ : Nat}

/-- The first `k` timer readings, or all if there are fewer. -/
def firstTimers (s : Source) (k : Nat) : List UInt64 := (List.range k).filterMap s.timerAt

theorem firstTimers_succ {r : UInt64} (h : s.timerAt 0 = some r) (k : Nat) :
    s.firstTimers (k + 1) = r :: (s.afterTimers 1).firstTimers k := by
  have hlater : s.timerAt ∘ Nat.succ = (s.afterTimers 1).timerAt := by
    funext i
    rw [timerAt_afterTimers, Nat.add_comm]
    rfl
  unfold firstTimers
  rw [List.range_succ_eq_map, List.filterMap_cons_some h, List.filterMap_map, hlater]

theorem firstTimers_prefix (s : Source) {j k : Nat} (h : j ≤ k) : s.firstTimers j <+: s.firstTimers k := by
  obtain ⟨n, rfl⟩ := Nat.exists_eq_add_of_le h
  simp [firstTimers, List.range_add, List.filterMap_append]

theorem length_firstTimers {k : Nat} (h : ∀ i < k, ∃ r, s.timerAt i = some r) :
    (s.firstTimers k).length = k := by
  induction k generalizing s with
  | zero => rfl
  | succ k ih =>
    obtain ⟨r, hr⟩ := h 0 (by omega)
    have hlater : ∀ i < k, ∃ r, (s.afterTimers 1).timerAt i = some r := by
      intro i hi
      rw [timerAt_afterTimers]
      exact h (1 + i) (by omega)
    rw [firstTimers_succ hr, List.length_cons, ih hlater]

namespace WaitsUntil

theorem eq_zero (h : s.WaitsUntil start target last k₁ r₁) (hover : target ≤ Word.sub last start) :
    k₁ = 0 := by
  by_contra hk
  obtain ⟨q, hq, hlt⟩ := h.before 0 (by omega)
  cases hq
  exact absurd hover (UInt64.not_le.2 hlt)

theorem exists_timerAt (h : s.WaitsUntil start target last k₁ r₁) :
    ∀ i < k₁, ∃ r, s.timerAt i = some r := by
  intro i hi
  by_cases hlast : i + 1 = k₁
  · subst hlast
    exact ⟨r₁, h.reading⟩
  · obtain ⟨q, hq, -⟩ := h.before (i + 1) (by omega)
    exact ⟨q, hq⟩

/-- A shorter wait ends if a longer one does. -/
theorem exists_shorter (h : s.WaitsUntil start long last k₂ r₂) (hle : short ≤ long) :
    ∃ k₁ r₁, s.WaitsUntil start short last k₁ r₁ := by
  let Over (k : Nat) : Prop := ∃ r, s.latest last k = some r ∧ short ≤ Word.sub r start
  have hover : Over k₂ := ⟨r₂, h.reading, UInt64.le_trans hle h.reached⟩
  obtain ⟨k₁, hk₁, hbefore⟩ : ∃ k₁, Over k₁ ∧ ∀ j < k₁, ¬ Over j := by
    classical
    exact ⟨Nat.find ⟨k₂, hover⟩, Nat.find_spec ⟨k₂, hover⟩, fun j hj => Nat.find_min _ hj⟩
  have hk : k₁ ≤ k₂ := by
    by_contra hlt
    exact hbefore k₂ (by omega) hover
  obtain ⟨r₁, hr₁, hreached⟩ := hk₁
  refine ⟨k₁, r₁, hr₁, hreached, ?_⟩
  intro j hj
  obtain ⟨q, hq, -⟩ := h.before j (by omega)
  exact ⟨q, hq, UInt64.not_le.1 fun hreached => hbefore j hj ⟨q, hq, hreached⟩⟩

theorem le_of_le (h₁ : s.WaitsUntil start short last k₁ r₁)
    (h₂ : s.WaitsUntil start long last k₂ r₂) (hle : short ≤ long) : k₁ ≤ k₂ := by
  by_contra hlt
  obtain ⟨q, hq, hbelow⟩ := h₁.before k₂ (by omega)
  have hsame : r₂ = q := Option.some.inj (h₂.reading.symm.trans hq)
  have hreached := UInt64.le_trans hle h₂.reached
  rw [hsame] at hreached
  exact absurd hbelow (UInt64.not_lt.2 hreached)

/-- The longer wait looked at the last reading of the shorter one and went on. -/
theorem elapsed_lt (h₁ : s.WaitsUntil start short last k₁ r₁)
    (h₂ : s.WaitsUntil start long last k₂ r₂) (hk : k₁ < k₂) : Word.sub r₁ start < Word.sub r₂ start := by
  obtain ⟨q, hq, hlt⟩ := h₂.before k₁ hk
  have hsame : r₁ = q := Option.some.inj (h₁.reading.symm.trans hq)
  rw [hsame]
  exact UInt64.lt_of_lt_of_le hlt h₂.reached

theorem reading_eq (h₁ : s.WaitsUntil start short last k₁ r₁)
    (h₂ : s.WaitsUntil start long last k₁ r₂) : r₁ = r₂ :=
  Option.some.inj (h₁.reading.symm.trans h₂.reading)

end WaitsUntil

end Source

section Traces
variable {start target last final first r : UInt64} {k n : Nat} {b : Bench}

theorem trace_spin (h : b.source.WaitsUntil start target last k r) (hk : k < n) :
    ((spin start target n last : Traced UInt64) b).2 =
      (b.source.firstTimers k).map (Act.read .timer) := by
  induction n generalizing last b k with
  | zero => omega
  | succ n ih =>
    by_cases hover : target ≤ Word.sub last start
    · rw [h.eq_zero hover, spin, if_pos hover]
      rfl
    · cases k with
      | zero =>
        cases h.reading
        exact absurd h.reached hover
      | succ k =>
        obtain ⟨q, hq, hrest⟩ := (Source.waitsUntil_succ_iff (UInt64.not_le.1 hover)).1 h
        have hlater := ih (b := b.afterTimers 1) hrest (by omega)
        rw [spin, if_neg hover, Traced.bind_of_ok _ (Traced.readTimer_of_some hq), hlater,
          Source.firstTimers_succ hq]
        rfl

theorem spinUntil_traced (h : b.source.WaitsUntil start target start k r) :
    (spinUntil start target : Traced UInt64) b =
      ((.ok r, b.afterTimers k), (b.source.firstTimers k).map (Act.read .timer)) := by
  have hresult := (traces_spinUntil start target b).1.trans (spinUntil_eq_ok_iff.2 ⟨k, h, rfl⟩)
  have htrace : ((spinUntil start target : Traced UInt64) b).2 = _ := trace_spin h h.lt_patience
  exact Prod.ext hresult htrace

/-- A calibration writes down its first timer reading, the readings of its wait, and the counter readings
around the wait. -/
theorem trace_calibrate {waitMs : UInt64} (hwait : 1 ≤ waitMs)
    (hstart : b.source.timerAt 0 = some start)
    (hfirst : (b.source.afterTimers 1).nextCounter = some first)
    (hlast : (b.source.afterTimers 1).WaitsUntil start (waitTicks b.source.frequency waitMs) start k last)
    (hfinal : (b.source.afterTimers (k + 1)).afterCounter.nextCounter = some final) :
    ((calibrate waitMs : Traced _) b).2 = .read .timer start :: .read .counter first ::
      (((b.source.afterTimers 1).firstTimers k).map (Act.read .timer) ++ [.read .counter final]) := by
  have hfrequency : (Clocks.frequency : Traced UInt64) b = ((.ok b.source.frequency, b), []) := rfl
  have hspin := spinUntil_traced (b := (b.afterTimers 1).afterCounter)
    (Source.waitsUntil_afterCounter_iff.2 hlast)
  have htimers : (b.afterTimers 1).afterCounter.source.firstTimers k =
      (b.source.afterTimers 1).firstTimers k :=
    congrArg (List.filterMap · (List.range k)) (Source.timerAt_afterCounter _)
  rw [htimers] at hspin
  rw [← Bench.source_afterWait] at hfinal
  rw [calibrate, if_neg (Word.ne_zero_of_one_le hwait), Traced.trace_map, calibrateFor, Traced.bind_of_ok _ hfrequency,
    Traced.bind_of_ok _ (Traced.readTimer_of_some hstart),
    Traced.bind_of_ok _ (Traced.readCounter_of_some hfirst), Traced.bind_of_ok _ hspin,
    Traced.bind_of_ok _ (Traced.readCounter_of_some hfinal)]
  rfl

end Traces

/-- What an ended calibration has seen of the timer: `k` readings behind its first one, and no more. -/
structure Calibration.Saw (r : Calibration) (b : Bench) (target : UInt64) (k : Nat) (start last : UInt64) :
    Prop where
  first : b.source.timerAt 0 = some start
  wait : (b.source.afterTimers 1).WaitsUntil start target start k last
  elapsed : r.timerElapsed = Word.sub last start

namespace Calibration.Saw
variable {r r₁ r₂ : Calibration} {b b' : Bench} {waitMs target short long start last last₁ last₂ : UInt64}
variable {k k₁ k₂ : Nat}

theorem of_calibrate (hwait : 1 ≤ waitMs)
    (h : (calibrate waitMs : Trial _) b = (.ok (.ok r), b')) :
    ∃ k start last, r.Saw b (waitTicks b.source.frequency waitMs) k start last ∧
      Trace.readings .timer ((calibrate waitMs : Traced _) b).2 = b.source.firstTimers (k + 1) ∧
      b'.reads.count .timer = b.reads.count .timer + (k + 1) := by
  rw [calibrate_eq_ok_iff hwait, calibrateFor_eq_ok_iff] at h
  obtain ⟨start, first, last, final, k, hstart, hfirst, hlast, hfinal, rfl, rfl⟩ := h
  refine ⟨k, start, last, ⟨hstart, hlast, rfl⟩, ?_, ?_⟩
  · have hwaited : ∀ rs : List UInt64, Trace.readings .timer
        (rs.map (Act.read .timer) ++ [.read .counter final]) = rs := by
      intro rs
      simp [Trace.readings, Act.reading?, List.filterMap_map, Function.comp_def]
    rw [trace_calibrate hwait hstart hfirst hlast hfinal, Source.firstTimers_succ hstart]
    exact congrArg (start :: ·) (hwaited _)
  · simp
    omega

theorem length_firstTimers (h : r.Saw b target k start last) :
    (b.source.firstTimers (k + 1)).length = k + 1 := by
  rw [Source.firstTimers_succ h.first, List.length_cons,
    Source.length_firstTimers h.wait.exists_timerAt]

theorem elapsed_eq_iff (h₁ : r₁.Saw b short k₁ start last₁) (h₂ : r₂.Saw b long k₂ start last₂)
    (hk : k₁ ≤ k₂) : r₁.timerElapsed = r₂.timerElapsed ↔ k₁ = k₂ := by
  rw [h₁.elapsed, h₂.elapsed]
  constructor
  · intro hsame
    by_contra hne
    have hlt := h₁.wait.elapsed_lt h₂.wait (by omega)
    rw [hsame] at hlt
    exact absurd hlt (UInt64.lt_irrefl _)
  · rintro rfl
    rw [h₁.wait.reading_eq h₂.wait]

theorem elapsed_le (h₁ : r₁.Saw b short k₁ start last₁) (h₂ : r₂.Saw b long k₂ start last₂)
    (hk : k₁ ≤ k₂) : r₁.timerElapsed ≤ r₂.timerElapsed := by
  by_cases hsame : k₁ = k₂
  · rw [(h₁.elapsed_eq_iff h₂ hk).2 hsame]
    exact UInt64.le_refl _
  · rw [h₁.elapsed, h₂.elapsed]
    exact UInt64.le_of_lt (h₁.wait.elapsed_lt h₂.wait (by omega))

end Calibration.Saw

/-- A calibration ends if one with a longer wait does. The source needs no more counter readings for it. -/
theorem calibrate_of_longer {b b₂ : Bench} {short long : UInt64} {r₂ : Calibration} (hshort : 1 ≤ short)
    (hle : short ≤ long) (h : (calibrate long : Trial _) b = (.ok (.ok r₂), b₂)) :
    ∃ r₁ b₁, (calibrate short : Trial _) b = (.ok (.ok r₁), b₁) := by
  rw [calibrate_eq_ok_iff (UInt64.le_trans hshort hle), calibrateFor_eq_ok_iff] at h
  obtain ⟨start, first, last, final, k₂, hstart, hfirst, hlast, hfinal, -⟩ := h
  obtain ⟨k₁, last₁, hlast₁⟩ := hlast.exists_shorter (waitTicks_mono b.source.frequency hle)
  obtain ⟨final₁, hfinal₁⟩ :
      ∃ final₁, (b.source.afterTimers (k₁ + 1)).afterCounter.nextCounter = some final₁ := by
    cases hs : b.source with
    | clock c => exact ⟨_, rfl⟩
    | script s =>
      rw [hs] at hfinal
      exact ⟨final, hfinal⟩
  exact ⟨_, _, (calibrate_eq_ok_iff hshort).2 (calibrateFor_eq_ok_iff.2
    ⟨start, first, last₁, final₁, k₁, hstart, hfirst, hlast₁, hfinal₁, rfl, rfl⟩)⟩

/-- Two waits from one state, on any clock or any readings, even ones that go back. If the longer
calibration ends, so does the shorter one. Its timer readings are the first of those of the longer one, it
sees the timer move no further, and it sees the timer move as far if and only if it reads the timer as
often. -/
theorem calibrate_longer_wait (b : Bench) {short long : UInt64} (hshort : 1 ≤ short) (hle : short ≤ long)
    {r₂ : Calibration} {b₂ : Bench} (h : (calibrate long : Trial _) b = (.ok (.ok r₂), b₂)) :
    let watched := fun waitMs => (calibrate waitMs : Traced _) b
    let timerReadings := fun waitMs => Trace.readings .timer (watched waitMs).2
    (∀ waitMs, (watched waitMs).1 = (calibrate waitMs : Trial _) b) ∧
      ∃ r₁ b₁, (calibrate short : Trial _) b = (.ok (.ok r₁), b₁) ∧
        timerReadings short <+: timerReadings long ∧
        b₁.reads.count .timer = b.reads.count .timer + (timerReadings short).length ∧
        b₂.reads.count .timer = b.reads.count .timer + (timerReadings long).length ∧
        r₁.timerElapsed ≤ r₂.timerElapsed ∧
        (r₁.timerElapsed = r₂.timerElapsed ↔
          (timerReadings short).length = (timerReadings long).length) := by
  intro watched timerReadings
  obtain ⟨r₁, b₁, h₁⟩ := calibrate_of_longer hshort hle h
  obtain ⟨k₁, start, last₁, hsaw₁, hreadings₁, hcount₁⟩ := Calibration.Saw.of_calibrate hshort h₁
  obtain ⟨k₂, start₂, last₂, hsaw₂, hreadings₂, hcount₂⟩ :=
    Calibration.Saw.of_calibrate (UInt64.le_trans hshort hle) h
  obtain rfl : start = start₂ := Option.some.inj (hsaw₁.first.symm.trans hsaw₂.first)
  have hk : k₁ ≤ k₂ := hsaw₁.wait.le_of_le hsaw₂.wait (waitTicks_mono _ hle)
  have hlength₁ : (timerReadings short).length = k₁ + 1 :=
    (congrArg List.length hreadings₁).trans hsaw₁.length_firstTimers
  have hlength₂ : (timerReadings long).length = k₂ + 1 :=
    (congrArg List.length hreadings₂).trans hsaw₂.length_firstTimers
  refine ⟨fun waitMs => (traces_calibrate waitMs b).1, r₁, b₁, h₁, ?_, ?_, ?_, ?_, ?_⟩
  · change Trace.readings .timer (watched short).2 <+: Trace.readings .timer (watched long).2
    rw [hreadings₁, hreadings₂]
    exact b.source.firstTimers_prefix (by omega)
  · rw [hcount₁, hlength₁]
  · rw [hcount₂, hlength₂]
  · exact hsaw₁.elapsed_le hsaw₂ hk
  · rw [hsaw₁.elapsed_eq_iff hsaw₂ hk, hlength₁, hlength₂]
    omega

/-- The timer goes back below its first reading and below the one that ends the shorter wait. -/
theorem calibrate_longer_wait_backwards :
    let b := Bench.ofSource (.script ⟨3000, [10, 4, 13, 9, 16, 20], [50, 40, 70], none⟩)
    let timerReadings := fun waitMs => Trace.readings .timer ((calibrate waitMs : Traced _) b).2
    (1 : UInt64) ≤ 1 ∧ (1 : UInt64) ≤ 2 ∧
      (∃ r₂ b₂, (calibrate 2 : Trial _) b = (.ok (.ok r₂), b₂) ∧ r₂.timerElapsed = 6 ∧
        ∃ r₁ b₁, (calibrate 1 : Trial _) b = (.ok (.ok r₁), b₁) ∧
          r₁.timerElapsed ≤ r₂.timerElapsed ∧ r₁.timerElapsed ≠ r₂.timerElapsed) ∧
      timerReadings 1 = [10, 4, 13] ∧ timerReadings 2 = [10, 4, 13, 9, 16] ∧
      timerReadings 1 <+: timerReadings 2 := by
  intro b timerReadings
  have hshort : timerReadings 1 = [10, 4, 13] := by decide +kernel
  have hlong : timerReadings 2 = [10, 4, 13, 9, 16] := by decide +kernel
  have hends : ((calibrate 2 : Trial _) b).1 = .ok (.ok ⟨0, 6, 3000, 0⟩) := by decide +kernel
  have hrun := Program.eq_of_fst_eq hends
  obtain ⟨-, r₁, b₁, h₁, hprefix, -, -, hle, hiff⟩ :=
    calibrate_longer_wait b (show (1 : UInt64) ≤ 1 by decide) (by decide) hrun
  refine ⟨by decide, by decide, ⟨_, _, hrun, rfl, r₁, b₁, h₁, hle, ?_⟩, hshort, hlong, hprefix⟩
  intro hsame
  have hlength : (timerReadings 1).length = (timerReadings 2).length := hiff.1 hsame
  rw [hshort, hlong] at hlength
  exact absurd hlength (by decide)

end Chronometry
