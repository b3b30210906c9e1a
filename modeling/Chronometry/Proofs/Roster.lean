import Chronometry.Proofs.SessionStep

/-! The roster of a session: how many profilers there are, and which of them began each token. It follows
from the operations alone, as long as they are done on a clock. -/
namespace Chronometry

section Owned
variable {α : Type} {p : Nat} {owners : List Nat} {xs : List α} {i : Nat}

/-- The entries whose owner is `p`. -/
def owned (p : Nat) : List Nat → List α → List α
  | owner :: owners, x :: xs => if owner = p then x :: owned p owners xs else owned p owners xs
  | _, _ => []

/-- How many of the first `i` owners are `p`: the place of an entry among those of its owner. -/
def rank (p : Nat) (owners : List Nat) (i : Nat) : Nat := (owners.take i).count p

theorem rank_succ (owner : Nat) (owners : List Nat) (i : Nat) :
    rank p (owner :: owners) (i + 1) = rank p owners i + if owner = p then 1 else 0 := by
  simp [rank, List.count_cons]

theorem rank_eq_of_le {all : List Nat} (h : owners <+: all) (hi : i ≤ owners.length) :
    rank p all i = rank p owners i := by
  obtain ⟨later, rfl⟩ := h
  rw [rank, List.take_append_of_le_length hi, rank]

theorem count_le_rank {all : List Nat} (h : owners <+: all) (hi : owners.length ≤ i) :
    owners.count p ≤ rank p all i := by
  obtain ⟨later, rfl⟩ := h
  rw [rank, List.take_append, List.take_of_length_le hi, List.count_append]
  omega

theorem length_owned (h : xs.length = owners.length) : (owned p owners xs).length = owners.count p := by
  induction owners generalizing xs with
  | nil => cases xs <;> rfl
  | cons owner owners ih =>
    cases xs with
    | nil => cases h
    | cons x xs =>
      have hrest := ih (Nat.succ.inj h)
      by_cases ho : owner = p <;> simp [owned, ho, hrest]

theorem owned_concat (h : xs.length = owners.length) (owner : Nat) (x : α) :
    owned p (owners ++ [owner]) (xs ++ [x]) = owned p owners xs ++ if owner = p then [x] else [] := by
  induction owners generalizing xs with
  | nil =>
    obtain rfl : xs = [] := List.length_eq_zero_iff.1 h
    rfl
  | cons first owners ih =>
    cases xs with
    | nil => cases h
    | cons y xs =>
      have hrest := ih (Nat.succ.inj h)
      by_cases ho : first = p <;> simp [owned, ho, hrest]

theorem getElem?_owned (h : xs.length = owners.length) (hi : owners[i]? = some p) :
    (owned p owners xs)[rank p owners i]? = xs[i]? := by
  induction owners generalizing xs i with
  | nil => cases hi
  | cons owner owners ih =>
    cases xs with
    | nil => cases h
    | cons x xs =>
      cases i with
      | zero =>
        cases hi
        simp [owned, rank]
      | succ i =>
        have hrest := ih (Nat.succ.inj h) hi
        rw [rank_succ]
        by_cases ho : owner = p <;> simp [owned, ho, hrest]

theorem owned_set (h : xs.length = owners.length) (hi : owners[i]? = some p) (x : α) :
    owned p owners (xs.set i x) = (owned p owners xs).set (rank p owners i) x := by
  induction owners generalizing xs i with
  | nil => cases hi
  | cons owner owners ih =>
    cases xs with
    | nil => cases h
    | cons y xs =>
      cases i with
      | zero =>
        cases hi
        simp [owned, rank]
      | succ i =>
        have hrest := ih (Nat.succ.inj h) hi
        rw [rank_succ]
        by_cases ho : owner = p <;> simp [owned, ho, hrest]

theorem owned_set_of_ne (hi : owners[i]? ≠ some p) (x : α) :
    owned p owners (xs.set i x) = owned p owners xs := by
  induction owners generalizing xs i with
  | nil => cases xs.set i x <;> cases xs <;> rfl
  | cons owner owners ih =>
    cases xs with
    | nil => rfl
    | cons y xs =>
      cases i with
      | zero =>
        have ho : owner ≠ p := fun ho => hi (congrArg some ho)
        simp [owned, ho]
      | succ i =>
        have hrest := @ih xs i hi
        by_cases ho : owner = p <;> simp [owned, ho, hrest]

end Owned

namespace Session

/-- How many profilers there are, and the profiler that began each token. -/
structure Roster where
  profilers : Nat
  owners : List Nat

namespace Roster

def empty : Roster := ⟨0, []⟩

/-- The roster after an operation on a clock, on which each section can begin. -/
def after (r : Roster) : Operation → Roster
  | .newProfiler _ => { r with profilers := r.profilers + 1 }
  | .copyProfiler n => if n < r.profilers then { r with profilers := r.profilers + 1 } else r
  | .begin n _ _ => if n < r.profilers then { r with owners := r.owners ++ [n] } else r
  | _ => r

def afterAll (r : Roster) (operations : List Operation) : Roster := operations.foldl after r

theorem profilers_after_le (r : Roster) (operation : Operation) :
    (r.after operation).profilers ≤ r.profilers + 1 := by
  cases operation with
  | newProfiler => exact Nat.le_refl _
  | copyProfiler n =>
    rw [after]
    split
    · exact Nat.le_refl _
    · exact Nat.le_succ _
  | begin n name bytes =>
    rw [after]
    split
    · exact Nat.le_succ _
    · exact Nat.le_succ _
  | _ => exact Nat.le_succ _

theorem owners_after (r : Roster) (operation : Operation) :
    r.owners <+: (r.after operation).owners := by
  cases operation with
  | copyProfiler n =>
    rw [after]
    split
    · exact List.prefix_rfl
    · exact List.prefix_rfl
  | begin n name bytes =>
    rw [after]
    split
    · exact List.prefix_append _ _
    · exact List.prefix_rfl
  | _ => exact List.prefix_rfl

theorem owners_afterAll (r : Roster) (operations : List Operation) :
    r.owners <+: (r.afterAll operations).owners := by
  induction operations generalizing r with
  | nil => exact List.prefix_rfl
  | cons operation rest ih => exact (r.owners_after operation).trans (ih (r.after operation))

end Roster

/-- The roster of a session. -/
structure Roster.Tracks (r : Roster) (s : Session) : Prop where
  profilers : s.profilers.length = r.profilers
  tokens : s.tokens.length = r.owners.length
  owners : ∀ owner ∈ r.owners, owner < r.profilers

section Steps
variable {s s' : Session} {c : Clock} {r : Roster} {p n : Nat} {operation : Operation}

theorem nextCounter_of_clock (hc : s.bench.source = .clock c) :
    s.bench.source.nextCounter = some c.readCounter := by
  rw [hc, Source.nextCounter]

theorem nextCounter_of_advance (hc : s.bench.source = .clock c) (ns : UInt64) :
    (s.bench.source.afterCounter.advance ns).nextCounter = some (c.advance ns).readCounter := by
  rw [hc, Source.afterCounter, Source.advance, Source.nextCounter]

namespace Roster.Tracks

theorem exists_profiler (h : r.Tracks s) (hn : n < r.profilers) : ∃ q, s.profilers[n]? = some q := by
  rw [← h.profilers] at hn
  exact ⟨s.profilers[n], List.getElem?_eq_getElem hn⟩

theorem profiler_eq_none (h : r.Tracks s) (hn : ¬n < r.profilers) : s.profilers[n]? = none := by
  rw [← h.profilers] at hn
  exact List.getElem?_eq_none (Nat.not_lt.1 hn)

/-- Tracking is about the numbers of profilers and tokens alone. -/
theorem of_edited (h : r.Tracks s) (hprofilers : (s.edited operation).1.length = s.profilers.length)
    (htokens : (s.edited operation).2.length = s.tokens.length) : r.Tracks (s.step operation).2 :=
  ⟨hprofilers.trans h.profilers, htokens.trans h.tokens, h.owners⟩

theorem newProfiler (h : r.Tracks s) (frequency : UInt64) :
    (r.after (.newProfiler frequency)).Tracks (s.step (.newProfiler frequency)).2 := by
  have hlength : (s.profilers ++ [Profiler.new frequency]).length = r.profilers + 1 := by
    rw [List.length_append, h.profilers, List.length_singleton]
  exact ⟨hlength, h.tokens, fun owner ho => Nat.lt_succ_of_lt (h.owners owner ho)⟩

theorem copyProfiler (h : r.Tracks s) (n : Nat) :
    (r.after (.copyProfiler n)).Tracks (s.step (.copyProfiler n)).2 := by
  have hedited := s.edited_copyProfiler n
  by_cases hn : n < r.profilers
  · obtain ⟨q, hq⟩ := h.exists_profiler hn
    rw [hq, Option.toList_some] at hedited
    have hlength : (s.edited (.copyProfiler n)).1.length = r.profilers + 1 := by
      rw [hedited, List.length_append, h.profilers, List.length_singleton]
    have htokens : (s.edited (.copyProfiler n)).2.length = r.owners.length := by
      rw [hedited, h.tokens]
    rw [after, if_pos hn]
    exact ⟨hlength, htokens, fun owner ho => Nat.lt_succ_of_lt (h.owners owner ho)⟩
  · rw [h.profiler_eq_none hn, Option.toList_none, List.append_nil] at hedited
    rw [after, if_neg hn]
    exact h.of_edited (by rw [hedited]) (by rw [hedited])

theorem begin (h : r.Tracks s) (hc : s.bench.source = .clock c) (n : Nat) (name : String)
    (bytes : UInt64) : (r.after (.begin n name bytes)).Tracks (s.step (.begin n name bytes)).2 := by
  by_cases hn : n < r.profilers
  · obtain ⟨q, hq⟩ := h.exists_profiler hn
    have hedited := edited_begin_of_some name bytes hq (nextCounter_of_clock hc)
    have hlength : (s.edited (.begin n name bytes)).1.length = r.profilers := by
      rw [hedited, List.length_set, h.profilers]
    have htokens : (s.edited (.begin n name bytes)).2.length = (r.owners ++ [n]).length := by
      rw [hedited, List.length_append, List.length_append, h.tokens]
      rfl
    rw [after, if_pos hn]
    refine ⟨hlength, htokens, fun owner ho => ?_⟩
    rcases List.mem_append.1 ho with ho | ho
    · exact h.owners owner ho
    · rwa [List.mem_singleton.1 ho]
  · have hedited := edited_begin_of_unknown name bytes (h.profiler_eq_none hn)
    rw [after, if_neg hn]
    exact h.of_edited (by rw [hedited]) (by rw [hedited])

theorem finish (h : r.Tracks s) (n token : Nat) : r.Tracks (s.step (.finish n token)).2 := by
  by_cases hok : ∃ t q reading, s.tokens[token]? = some (some t) ∧ s.profilers[n]? = some q ∧
      s.bench.source.nextCounter = some reading
  · obtain ⟨t, q, reading, ht, hq, hr⟩ := hok
    have hedited := (step_finish_of_some ht hq hr).2
    exact h.of_edited (by rw [hedited, List.length_set]) (by rw [hedited, List.length_set])
  · rcases (step_finish_of_failure hok).2 with hedited | hedited
    · exact h.of_edited (by rw [hedited]) (by rw [hedited])
    · exact h.of_edited (by rw [hedited]) (by rw [hedited, List.length_set])

theorem time (h : r.Tracks s) (hc : s.bench.source = .clock c) (n : Nat) (name : String)
    (ns : UInt64) : r.Tracks (s.step (.time n name ns)).2 := by
  by_cases hn : n < r.profilers
  · obtain ⟨q, hq⟩ := h.exists_profiler hn
    have hedited := (step_time_of_some name ns hq (nextCounter_of_clock hc)
      (nextCounter_of_advance hc ns)).2
    exact h.of_edited (by rw [hedited, List.length_set]) (by rw [hedited])
  · have hedited := edited_time_of_unknown name ns (h.profiler_eq_none hn)
    exact h.of_edited (by rw [hedited]) (by rw [hedited])

theorem step (h : r.Tracks s) (hc : s.bench.source = .clock c) (operation : Operation) :
    (r.after operation).Tracks (s.step operation).2 := by
  cases operation with
  | newProfiler frequency => exact h.newProfiler frequency
  | copyProfiler n => exact h.copyProfiler n
  | begin n name bytes => exact h.begin hc n name bytes
  | finish n token => exact h.finish n token
  | time n name ns => exact h.time hc n name ns
  | _ => exact h.of_edited (by rw [edited_of_frames rfl]) (by rw [edited_of_frames rfl])

end Roster.Tracks

end Steps

end Session

end Chronometry
