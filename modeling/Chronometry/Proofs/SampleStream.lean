import Chronometry.Statistics
import Mathlib.Algebra.Group.Nat.Defs

/-! Streams of binary64 samples. Main statement: a sample that is refused leaves no trace, and neither
does a look at the stream. -/
namespace Chronometry

theorem Word.ofNat_eq_zero_iff (n : Nat) : UInt64.ofNat n = 0 ↔ 2 ^ 64 ∣ n := by
  rw [UInt64.ofNat_eq_iff_mod_eq_toNat, UInt64.toNat_zero, Nat.dvd_iff_mod_eq_zero]

namespace Statistics

namespace Stream

theorem count_foldl_push (xs : List Float) (s : Samples) :
    (xs.foldl push s).count = s.count + .ofNat xs.length := by
  induction xs generalizing s with
  | nil => exact (UInt64.add_zero _).symm
  | cons x xs ih =>
    have hpush : (s.push x).count = s.count + 1 := rfl
    rw [List.foldl_cons, ih, hpush, List.length_cons, UInt64.ofNat_add, UInt64.add_assoc,
      UInt64.add_comm 1]
    rfl

theorem count_foldl_push_empty (xs : List Float) :
    (xs.foldl push (.empty : Samples)).count = .ofNat xs.length :=
  (count_foldl_push xs .empty).trans (UInt64.zero_add _)

theorem isEmpty_iff (s : Samples) : s.isEmpty = true ↔ s.count = 0 := beq_iff_eq

theorem summary_eq_empty_iff (s : Samples) : s.summary = .error .empty ↔ s.isEmpty = true := by
  rw [summary]
  cases s.isEmpty <;> simp

theorem summary_of_count_ne_zero {s : Samples} (h : s.count ≠ 0) :
    ∃ summary, s.summary = .ok summary ∧ summary.count = s.count := by
  rw [summary, if_neg (mt s.isEmpty_iff.1 h)]
  exact ⟨_, rfl, rfl⟩

/-- A stream whose samples can be counted in a word is empty only if there are none. -/
theorem isEmpty_foldl_push {xs : List Float} (h : xs.length < 2 ^ 64) :
    (xs.foldl push (.empty : Samples)).isEmpty = xs.isEmpty := by
  rw [Bool.eq_iff_iff, isEmpty_iff, count_foldl_push_empty, Word.ofNat_eq_zero_iff, List.isEmpty_iff,
    ← List.length_eq_zero_iff]
  omega

end Stream

namespace Call

def value? : Call → Option Float
  | .update value => some value
  | _ => none

def values (calls : List Call) : List Float := calls.filterMap value?

/-- The values handed over that a stream takes in. -/
def samples (calls : List Call) : List Float := (values calls).filter Float.isFinite

theorem samples_cons (call : Call) (calls : List Call) :
    samples (call :: calls) = samples [call] ++ samples calls := by
  simp only [samples, values, ← List.filter_append, ← List.filterMap_append, List.singleton_append]

theorem samples_update (value : Float) :
    samples [.update value] = if value.isFinite then [value] else [] := by
  by_cases h : value.isFinite = true
  · simp [samples, values, value?, h]
  · simp [samples, values, value?, h]

theorem samples_map_update (xs : List Float) : samples (xs.map .update) = xs.filter Float.isFinite := by
  rw [samples, values, List.filterMap_map]
  exact congrArg _ List.filterMap_some

end Call

namespace Stream

theorem run_update (x : Float) (s : Samples) : (update x).run s =
    if x.isFinite then (.ok (), s.push x) else (.error (.nonFinite x), s) := by
  unfold update
  cases x.isFinite <;> rfl

theorem call_update (s : Samples) (x : Float) :
    s.call (.update x) =
      if x.isFinite then (.ok .taken, s.push x) else (.error (.nonFinite x), s) := by
  rw [call, run_update]
  cases x.isFinite <;> rfl

/-- A call leaves the samples that it hands over, and no other trace. -/
theorem snd_call (s : Samples) (call : Call) :
    (s.call call).2 = (Call.samples [call]).foldl push s := by
  cases call with
  | update x =>
    rw [call_update, Call.samples_update]
    split
    · rfl
    · rfl
  | length => rfl
  | isEmpty => rfl
  | summary => rfl

theorem snd_calls (s : Samples) (calls : List Call) :
    (s.calls calls).2 = (Call.samples calls).foldl push s := by
  induction calls generalizing s with
  | nil => rfl
  | cons call rest ih =>
    change ((s.call call).2.calls rest).2 = _
    rw [ih, snd_call, ← List.foldl_append, ← Call.samples_cons]

/-- Every call answers for the stream that the calls before it have left. -/
theorem getElem?_calls (s : Samples) (calls : List Call) (i : Nat) :
    (s.calls calls).1[i]? = calls[i]?.map fun call => ((s.calls (calls.take i)).2.call call).1 := by
  induction calls generalizing s i with
  | nil => rfl
  | cons call rest ih =>
    cases i with
    | zero => rfl
    | succ i => exact ih (s.call call).2 i

end Stream

/-- A stream that is asked all sorts of things, with values among them that are not finite. It refuses
exactly those, each with its own error. It ends as the stream to which only the finite values were handed
over, whether or not it was looked at in between, and at every moment it answers as that stream does. Its
count is their number as a word, so up to `2 ^ 64 - 1` of them it is empty only without any. -/
theorem calls_skip_refused (calls : List Call) :
    let fed := fun xs : List Float => ((.empty : Samples).calls (xs.map .update)).2
    let values := fun calls : List Call => calls.filterMap Call.value?
    let finite := fun calls => (values calls).filter Float.isFinite
    let replies := ((.empty : Samples).calls calls).1
    let s := ((.empty : Samples).calls calls).2
    (∀ (t : Samples) (x : Float), t.call (.update x) =
      if x.isFinite then (.ok .taken, t.push x) else (.error (.nonFinite x), t)) ∧
    s = fed (finite calls) ∧ s = fed (values calls) ∧
    s.count = .ofNat (finite calls).length ∧
    (s.isEmpty = true ↔ 2 ^ 64 ∣ (finite calls).length) ∧
    (s.summary = .error .empty ↔ s.isEmpty = true) ∧
    ((finite calls).length < 2 ^ 64 →
      s.count.toNat = (finite calls).length ∧ s.isEmpty = (finite calls).isEmpty ∧
      (s.summary = .error .empty ↔ finite calls = [])) ∧
    ∀ i : Nat, replies[i]? = calls[i]?.map fun call : Call =>
      match call with
      | .update x => if x.isFinite then .ok .taken else .error (.nonFinite x)
      | .length => .ok (.length (.ofNat (finite (calls.take i)).length))
      | .isEmpty => .ok (.isEmpty (fed (finite (calls.take i))).isEmpty)
      | .summary => .summary <$> (fed (finite (calls.take i))).summary := by
  intro fed values finite replies s
  have hfed : ∀ xs, fed xs = (xs.filter Float.isFinite).foldl Stream.push .empty := by
    intro xs
    rw [← Call.samples_map_update]
    exact Stream.snd_calls _ _
  have hfinite : ∀ calls, fed (finite calls) = (finite calls).foldl Stream.push .empty := by
    intro calls
    rw [hfed, List.filter_filter]
    simp only [Bool.and_self]
    rfl
  have hstream : ∀ calls, ((.empty : Samples).calls calls).2 = fed (finite calls) := by
    intro calls
    rw [hfinite]
    exact Stream.snd_calls _ _
  have hcount : ∀ calls, (fed (finite calls)).count = .ofNat (finite calls).length := by
    intro calls
    rw [hfinite, Stream.count_foldl_push_empty]
  have hs : s = fed (finite calls) := hstream calls
  refine ⟨Stream.call_update, hs, ?_, ?_, ?_, s.summary_eq_empty_iff, ?_, ?_⟩
  · rw [hs, hfed (values calls), hfinite]
  · rw [hs, hcount]
  · rw [s.isEmpty_iff, hs, hcount, Word.ofNat_eq_zero_iff]
  · intro hfew
    have hempty : s.isEmpty = (finite calls).isEmpty := by
      rw [hs, hfinite, Stream.isEmpty_foldl_push hfew]
    refine ⟨?_, hempty, ?_⟩
    · rw [hs, hcount, UInt64.toNat_ofNat_of_lt' hfew]
    · rw [s.summary_eq_empty_iff, hempty, List.isEmpty_iff]
  · intro i
    refine (Stream.getElem?_calls _ _ i).trans ?_
    rw [hstream]
    cases calls[i]? with
    | none => rfl
    | some call =>
      apply congrArg some
      cases call with
      | update x =>
        change (Stream.call _ (.update x)).1 = if x.isFinite then .ok .taken else .error (.nonFinite x)
        rw [Stream.call_update, apply_ite Prod.fst]
      | length => exact congrArg (fun n => Except.ok (Reply.length n)) (hcount _)
      | isEmpty => rfl
      | summary => rfl

/-- Two samples, of which the stream is asked the number with a refused value in between. -/
theorem calls_skip_refused_infinite :
    let calls : List Call := [.update 1.5, .update infinity, .length, .update 2.5, .summary]
    let finite := (calls.filterMap Call.value?).filter Float.isFinite
    let s := ((.empty : Samples).calls calls).2
    finite.length < 2 ^ 64 ∧ finite.length = 2 ∧ s.count.toNat = 2 ∧ s.summary ≠ .error .empty ∧
      ((.empty : Samples).calls calls).1[2]? = some (.ok (.length 1)) := by
  intro calls finite s
  have htwo : finite.length = 2 := by decide +kernel
  have hone : ((([.update 1.5, .update infinity] : List Call).filterMap Call.value?).filter
    Float.isFinite).length = 1 := by decide +kernel
  have hfew : finite.length < 2 ^ 64 := by omega
  obtain ⟨-, -, -, -, -, -, hcounted, hreplies⟩ := calls_skip_refused calls
  obtain ⟨hcount, -, hempty⟩ := hcounted hfew
  refine ⟨hfew, htwo, hcount.trans htwo, ?_, ?_⟩
  · intro hnone
    have hnil : finite = [] := hempty.1 hnone
    rw [hnil] at htwo
    cases htwo
  · refine (hreplies 2).trans ?_
    change some (Except.ok (Reply.length (.ofNat _))) = _
    exact congrArg (fun n => some (Except.ok (Reply.length (.ofNat n)))) hone

end Statistics

end Chronometry
