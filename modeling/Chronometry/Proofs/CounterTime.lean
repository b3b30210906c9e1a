import Chronometry.Proofs.ClockTime
import Chronometry.Proofs.History
import Chronometry.Proofs.Roster
import Chronometry.Proofs.SessionTrace
import Mathlib.Algebra.Order.Ring.Int

/-! Time as the counter of a simulated clock shows it. Main statement: between two moments of a session,
a stamp and a pass of a section count the time up to one tick, and the counts add up. -/
namespace Chronometry

namespace Ticks

theorem nanoseconds?_of_pos (x : UInt64) {frequency : UInt64} (h : 0 < frequency.toNat) :
    nanoseconds? ⟨x⟩ frequency = some (x.toNat * 10 ^ 9 / frequency.toNat) := by
  have hne : frequency ≠ 0 := by
    rintro rfl
    exact absurd h (by decide)
  exact if_neg hne

variable {x time rate : Nat}

/-- Ticks that are right up to one, as nanoseconds: the quotient is cut, so that they may be short by a
nanosecond more. -/
theorem nanoseconds_close (hrate : 0 < rate) (hupper : x * 10 ^ 9 < time * rate + 10 ^ 9)
    (hlower : time * rate < x * 10 ^ 9 + 10 ^ 9) :
    x * 10 ^ 9 / rate * rate < time * rate + 10 ^ 9 ∧
      time * rate < x * 10 ^ 9 / rate * rate + 10 ^ 9 + rate := by
  have hle := Nat.div_mul_le_self (x * 10 ^ 9) rate
  have hlt := Nat.lt_div_mul_add (a := x * 10 ^ 9) hrate
  omega

/-- At a whole number of ticks for each nanosecond nothing is cut. -/
theorem nanoseconds_eq_of_dvd (hrate : 0 < rate) (hdvd : 10 ^ 9 ∣ rate)
    (hupper : x * 10 ^ 9 < time * rate + 10 ^ 9) (hlower : time * rate < x * 10 ^ 9 + 10 ^ 9) :
    x * 10 ^ 9 / rate = time := by
  rw [eq_of_dvd_of_close (hdvd.mul_left time) hupper hlower, Nat.mul_div_cancel _ hrate]

end Ticks

theorem Clock.sub_scale_add {a b d rate : UInt64} (hab : a.toNat ≤ b.toNat) (hbd : b.toNat ≤ d.toNat)
    (h : d.toNat * rate.toNat / 10 ^ 9 < 2 ^ 64) :
    (Word.sub (scale b rate) (scale a rate)).toNat + (Word.sub (scale d rate) (scale b rate)).toNat =
      (Word.sub (scale d rate) (scale a rate)).toNat := by
  have hle {a b : UInt64} (hab : a.toNat ≤ b.toNat) :
      a.toNat * rate.toNat / 10 ^ 9 ≤ b.toNat * rate.toNat / 10 ^ 9 :=
    Nat.div_le_div_right (Nat.mul_le_mul_right _ hab)
  rw [toNat_sub_scale hab ((hle hbd).trans_lt h), toNat_sub_scale hbd h,
    toNat_sub_scale (hab.trans hbd) h]
  have := hle hab
  have := hle hbd
  omega

namespace Session

/-- A way to count ticks: a stamp, or a pass of a section, which any profiler may end. -/
inductive Stopwatch where
  | stamp
  | pass (profiler : Nat) (name : String) (bytes : UInt64) (ender : Nat)

namespace Stopwatch

def start : Stopwatch → Operation
  | .stamp => .stamp
  | .pass profiler name bytes _ => .begin profiler name bytes

/-- The stop that belongs to the start in `s`: it names the stamp or the token that the start made. -/
def stop (s : Session) : Stopwatch → Operation
  | .stamp => .elapsed s.stamps.length
  | .pass _ _ _ ender => .finish ender s.tokens.length

def later (w : Stopwatch) (s : Session) (between : List Operation) : Session :=
  (s.run (w.start :: between)).2

/-- What is needed besides a clock: a pass has its profilers, and nothing else ends it. -/
def Runs (w : Stopwatch) (s : Session) (between : List Operation) : Prop :=
  match w with
  | .stamp => True
  | .pass profiler _ _ ender => profiler < s.profilers.length ∧
      ender < (w.later s between).profilers.length ∧ ∀ n, .finish n s.tokens.length ∉ between

def shows (w : Stopwatch) (s : Session) (between : List Operation) : Except Error Answer :=
  ((w.later s between).step (w.stop s)).1.answer

section
variable {w : Stopwatch} {s : Session} {c : Clock} {between : List Operation} {b : UInt64}

theorem nextCounter_later (hc : s.bench.source = .clock c) (hb : (w.later s between).now? = some b) :
    (w.later s between).bench.source.nextCounter = some (Clock.scale b c.rate) := by
  obtain ⟨c', hc', hlives, -⟩ := run_lives hc (w.start :: between)
  change (w.later s between).bench.source = .clock c' at hc'
  have hnow : c'.now = b := by
    rw [now?, hc'] at hb
    exact Option.some.inj hb
  rw [nextCounter_of_clock hc', Clock.readCounter, hlives.rate_eq, hnow]

theorem shows_stamp (hc : s.bench.source = .clock c)
    (hb : (later .stamp s between).now? = some b) :
    shows .stamp s between =
      .ok (.word (Word.sub (Clock.scale b c.rate) (Clock.scale c.now c.rate))) := by
  have hstart : (s.step .stamp).2.stamps = s.stamps ++ [⟨c.readCounter⟩] :=
    step_stamp_of_some (nextCounter_of_clock hc)
  have hstamp : (later .stamp s between).stamps[s.stamps.length]? = some ⟨c.readCounter⟩ := by
    obtain ⟨made, hmade⟩ := stamps_run (s.step .stamp).2 between
    change (s.step .stamp).2.stamps ++ made = (later .stamp s between).stamps at hmade
    rw [← hmade, hstart, List.append_assoc, List.getElem?_append_right (Nat.le_refl _), Nat.sub_self]
    rfl
  exact step_elapsed_of_some hstamp (nextCounter_later hc hb)

theorem shows_pass {profiler ender : Nat} {name : String} {bytes : UInt64}
    (hc : s.bench.source = .clock c) (hruns : (pass profiler name bytes ender).Runs s between)
    (hb : (later (.pass profiler name bytes ender) s between).now? = some b) :
    shows (.pass profiler name bytes ender) s between =
      .ok (.word (Word.sub (Clock.scale b c.rate) (Clock.scale c.now c.rate))) := by
  obtain ⟨hprofiler, hender, hunused⟩ := hruns
  have hbegin := edited_begin_of_some name bytes (List.getElem?_eq_getElem hprofiler)
    (nextCounter_of_clock hc)
  obtain ⟨t, hstart, htokens⟩ : ∃ t : Token, t.start = ⟨c.readCounter⟩ ∧
      (s.step (.begin profiler name bytes)).2.tokens = s.tokens ++ [some t] :=
    ⟨_, rfl, congrArg Prod.snd hbegin⟩
  have htoken : (later (.pass profiler name bytes ender) s between).tokens[s.tokens.length]? =
      some (some t) := by
    apply getElem?_tokens_run (s := (s.step (.begin profiler name bytes)).2) _ hunused
    rw [htokens, List.getElem?_concat_length]
  refine (step_finish_of_some htoken (List.getElem?_eq_getElem hender)
    (nextCounter_later hc hb)).1.trans ?_
  rw [Profiler.leave_snd, hstart]
  rfl

/-- Both ways show the ticks between two readings of the counter. -/
theorem shows_eq (hc : s.bench.source = .clock c) (hruns : w.Runs s between)
    (hb : (w.later s between).now? = some b) :
    w.shows s between =
      .ok (.word (Word.sub (Clock.scale b c.rate) (Clock.scale c.now c.rate))) := by
  cases w with
  | stamp => exact shows_stamp hc hb
  | pass profiler name bytes ender => exact shows_pass hc hruns hb

end

end Stopwatch

/-- Some session counts `x` ticks from the time `a` to the time `b` on a counter of this rate. -/
def Counts (rate a b x : UInt64) : Prop :=
  ∃ (w : Stopwatch) (s : Session) (between : List Operation) (c : Clock),
    s.bench.source = .clock c ∧ c.rate = rate ∧ c.now = a ∧ w.Runs s between ∧
      (w.later s between).now? = some b ∧ w.shows s between = .ok (.word x)

theorem Counts.eq {rate a b x : UInt64} (h : Counts rate a b x) :
    x = Word.sub (Clock.scale b rate) (Clock.scale a rate) := by
  obtain ⟨w, s, between, c, hc, rfl, rfl, hruns, hb, hshows⟩ := h
  rw [Stopwatch.shows_eq hc hruns hb] at hshows
  cases hshows
  rfl

/-- A stopwatch that starts at a time `a` and stops at a time `b` shows the time between them: less than
one tick off, and as nanoseconds short by less than one more. The ticks to a third time add up. -/
theorem stopwatch_shows_time {w : Stopwatch} {s : Session} {between : List Operation} {c : Clock}
    {b : UInt64} (hc : s.bench.source = .clock c) (hrate : 1 ≤ c.rate) (hruns : w.Runs s between)
    (hb : (w.later s between).now? = some b) (hab : c.now ≤ b)
    (hcut : b.toNat * c.rate.toNat / 10 ^ 9 < 2 ^ 64) :
    ∃ x n, w.shows s between = .ok (.word x) ∧ Ticks.nanoseconds? ⟨x⟩ c.rate = some n ∧
      |(x.toNat : ℤ) * 10 ^ 9 - (b.toNat - c.now.toNat) * c.rate.toNat| < 10 ^ 9 ∧
      ((n : ℤ) - (b.toNat - c.now.toNat)) * c.rate.toNat < 10 ^ 9 ∧
      ((b.toNat - c.now.toNat) - (n : ℤ)) * c.rate.toNat < 10 ^ 9 + c.rate.toNat ∧
      (10 ^ 9 ∣ c.rate.toNat → n = b.toNat - c.now.toNat) ∧
      ∀ d y z, b ≤ d → d.toNat * c.rate.toNat / 10 ^ 9 < 2 ^ 64 → Counts c.rate b d y →
        Counts c.rate c.now d z → x.toNat + y.toNat = z.toNat := by
  have hpos : 0 < c.rate.toNat := UInt64.le_iff_toNat_le.1 hrate
  rw [UInt64.le_iff_toNat_le] at hab
  obtain ⟨hupper, hlower⟩ := Clock.sub_scale_close hab hcut
  obtain ⟨hlong, hshort⟩ := Ticks.nanoseconds_close hpos hupper hlower
  rw [← Nat.cast_sub hab]
  refine ⟨_, _, Stopwatch.shows_eq hc hruns hb, Ticks.nanoseconds?_of_pos _ hpos, ?_, ?_, ?_,
    fun hdvd => Ticks.nanoseconds_eq_of_dvd hpos hdvd hupper hlower, ?_⟩
  · exact abs_lt.2 ⟨by omega, by omega⟩
  · rw [Int.sub_mul]; omega
  · rw [Int.sub_mul]; omega
  · intro d y z hbd hcut' hy hz
    rw [hy.eq, hz.eq]
    exact Clock.sub_scale_add hab (UInt64.le_iff_toNat_le.1 hbd) hcut'

/-- A pass of 16 ns at 0.7 ticks for each, from the middle of a tick on. The 11 ticks that it shows read
as 15 ns; with the 7 ticks of a stamp at its end they make the 18 ticks of a stamp at its start. -/
theorem stopwatch_shows_time_mid_tick :
    let c : Clock := ⟨1000000000, 700000000, 10, 5, none⟩
    let s := (ofSource (.clock c)).run [.newProfiler 0] |>.2
    let started := (s.step .stamp).2
    let pass : Stopwatch := .pass 0 "pass" 0 0
    let work : List Operation := [.advance 6, .readTimer]
    let ended := ((pass.later started work).step (pass.stop started)).2
    let whole : List Operation := pass.start :: work ++ [pass.stop started, .stamp, .advance 9]
    (pass.later started work).now? = some 21 ∧ pass.shows started work = .ok (.word 11) ∧
      Ticks.nanoseconds? ⟨11⟩ c.rate = some 15 ∧
      |(11 : ℤ) * 10 ^ 9 - (21 - 5) * 700000000| < 10 ^ 9 ∧
      ((15 : ℤ) - (21 - 5)) * 700000000 < 10 ^ 9 ∧
      ((21 - 5) - (15 : ℤ)) * 700000000 < 10 ^ 9 + 700000000 ∧
      Stopwatch.stamp.shows ended [.advance 9] = .ok (.word 7) ∧
      Stopwatch.stamp.shows s whole = .ok (.word 18) ∧
      (11 : UInt64).toNat + (7 : UInt64).toNat = (18 : UInt64).toNat := by
  intro c s started pass work ended whole
  have hruns : pass.Runs started work := ⟨by decide, by decide +kernel, by simp [work]⟩
  have hb : (pass.later started work).now? = some 21 := by decide +kernel
  have hcount : Word.sub (Clock.scale 21 c.rate) (Clock.scale 5 c.rate) = 11 := by decide
  have hcount' : Word.sub (Clock.scale 30 c.rate) (Clock.scale 21 c.rate) = 7 := by decide
  have hsum : Word.sub (Clock.scale 30 c.rate) (Clock.scale 5 c.rate) = 18 := by decide
  have hshows : pass.shows started work = .ok (.word 11) :=
    hcount ▸ Stopwatch.shows_eq (c := c) rfl hruns hb
  have hstamp : Stopwatch.stamp.shows ended [.advance 9] = .ok (.word 7) :=
    hcount' ▸ Stopwatch.shows_eq (c := { c with now := 21 }) rfl trivial (by decide +kernel)
  have hwhole : Stopwatch.stamp.shows s whole = .ok (.word 18) :=
    hsum ▸ Stopwatch.shows_eq (c := c) rfl trivial (by decide +kernel)
  have hnanoseconds : Ticks.nanoseconds? ⟨11⟩ c.rate = some 15 := by decide
  have hy : Counts c.rate 21 30 7 :=
    ⟨.stamp, ended, [.advance 9], { c with now := 21 }, rfl, rfl, rfl, trivial, rfl, hstamp⟩
  have hz : Counts c.rate c.now 30 18 := ⟨.stamp, s, whole, c, rfl, rfl, rfl, trivial, rfl, hwhole⟩
  obtain ⟨x, n, hx, hn, hticks, hlong, hshort, -, hadd⟩ :=
    stopwatch_shows_time (s := started) (c := c) rfl (by decide) hruns hb (by decide) (by decide)
  obtain rfl : 11 = x := by
    rw [hshows] at hx
    cases hx
    rfl
  obtain rfl : 15 = n := Option.some.inj (hnanoseconds.symm.trans hn)
  exact ⟨hb, hshows, hnanoseconds, hticks, hlong, hshort, hstamp, hwhole,
    hadd 30 7 18 (by decide) (by decide) hy hz⟩

end Session

end Chronometry
