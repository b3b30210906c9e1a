import Chronometry.Proofs.Bookkeeping
import Chronometry.Proofs.Turns
import Mathlib.Algebra.Order.Field.Rat
import Mathlib.Tactic.Linarith

/-! Runs in which the sections of a profiler take turns, whatever else happens in the session. Main
statement: such sections account for the whole of the profiled time. -/
namespace Chronometry

namespace History

/-- The token of the section that is open, if there is one; a section that was to be timed as a whole
has no token. -/
def opened? (h : History) : Option (Option Nat) :=
  match h.getLast? with
  | some (.begun token _ _ (some _)) => some token
  | _ => none

theorem Closed.opened?_eq_none {h : History} {ps : List (Nat × Nat)} (hc : h.Closed ps) :
    h.opened? = none := by
  cases hc with
  | nil => rfl
  | missed name bytes _ => simp [opened?]
  | passed token name bytes start stop _ => simp [opened?]

theorem opened?_begun (h : History) (token : Option Nat) (name : String) (bytes start : UInt64) :
    opened? (h ++ [.begun token name bytes (some start)]) = some token := by
  simp [opened?]

theorem InTurn.closed {h : History} {ps : List (Nat × Nat)} (ht : h.InTurn ps)
    (ho : h.opened? = none) : h.Closed ps := by
  rcases ht with hc | ⟨g, token, name, bytes, start, -, rfl⟩
  · exact hc
  · rw [opened?_begun] at ho
    cases ho

theorem InTurn.exists_of_opened {h : History} {ps : List (Nat × Nat)} {token : Option Nat}
    (ht : h.InTurn ps) (ho : h.opened? = some token) :
    ∃ (g : History) (name : String) (bytes start : UInt64),
      g.Closed ps ∧ h = g ++ [.begun token name bytes (some start)] := by
  rcases ht with hc | ⟨g, token, name, bytes, start, hc, rfl⟩
  · rw [hc.opened?_eq_none] at ho
    cases ho
  · rw [opened?_begun] at ho
    cases ho
    exact ⟨g, name, bytes, start, hc, rfl⟩

theorem begin?_begun {h : History} {tokens : List (Option Token)} (ht : h.Tracks tokens)
    (name : String) (bytes : UInt64) (reading : Option UInt64) :
    begin? (h ++ [.begun (some tokens.length) name bytes reading]) tokens.length =
      some (name, bytes) := by
  have hnone : h.begin? tokens.length = none := by
    cases hb : h.begin? tokens.length with
    | none => rfl
    | some found =>
      obtain ⟨reading, hmem⟩ := begun_of_begin? hb
      exact absurd (ht _ _ _ _ hmem).1 (Nat.lt_irrefl _)
  rw [begin?, List.findSome?_append, ← begin?, hnone]
  simp

/-- The token of the open section knows the reading of its begin. -/
def Opens (h : History) (tokens : List (Option Token)) : Prop :=
  ∀ number name bytes start, h.getLast? = some (.begun (some number) name bytes (some start)) →
    h.begin? number = some (name, bytes) ∧ ∀ t, tokens[number]? = some (some t) → t.start = ⟨start⟩

namespace Opens
variable {h : History} {tokens : List (Option Token)}

theorem of_opened? (ho : ∀ number, h.opened? ≠ some (some number)) : h.Opens tokens := by
  intro number name bytes start hlast
  have hopened : h.opened? = some (some number) := by rw [opened?, hlast]
  exact absurd hopened (ho number)

theorem append_token (ho : h.Opens tokens) (ht : h.Tracks tokens) (place : Option Token) :
    h.Opens (tokens ++ [place]) := by
  intro number name bytes start hlast
  obtain ⟨hbegin, hstart⟩ := ho number name bytes start hlast
  have hlt := (ht number name bytes _ (List.mem_of_getLast? hlast)).1
  refine ⟨hbegin, fun t hplace => hstart t ?_⟩
  rwa [List.getElem?_append_left hlt] at hplace

theorem use_token (ho : h.Opens tokens) (used : Nat) : h.Opens (tokens.set used none) := by
  intro number name bytes start hlast
  obtain ⟨hbegin, hstart⟩ := ho number name bytes start hlast
  refine ⟨hbegin, fun t hplace => hstart t ?_⟩
  rw [List.getElem?_set] at hplace
  split at hplace
  · split at hplace <;> cases hplace
  · exact hplace

end Opens

end History

namespace Session

/-- What an operation adds to the history `h` of profiler `n`. -/
def eventsOf (s : Session) (n : Nat) (h : History) : Operation → History
  | .begin m name bytes => if m = n then s.begunEvents name bytes else []
  | .finish m number => if m = n then s.endedEvents n number h else []
  | .time m name ns => if m = n then s.timedEvents name ns else []
  | _ => []

def historyOf (s : Session) (n : Nat) (h : History) : List Operation → History
  | [] => h
  | operation :: rest => (s.step operation).2.historyOf n (h ++ s.eventsOf n h operation) rest

/-- A section of profiler `n` begins only if none is open, and only the open one ends. -/
def Operation.inTurn (n : Nat) (h : History) : Operation → Bool
  | .begin m _ _ | .time m _ _ => m ≠ n || h.opened? = none
  | .finish m number => m ≠ n || h.opened? = some (some number)
  | _ => true

def inTurn (s : Session) (n : Nat) (h : History) : List Operation → Bool
  | [] => true
  | operation :: rest =>
    operation.inTurn n h && (s.step operation).2.inTurn n (h ++ s.eventsOf n h operation) rest

/-- The state of profiler `n`, and of the tokens, while its sections take turns. -/
structure TakesTurns (state : List Profiler × List (Option Token)) (n : Nat) (h : History) : Prop where
  records : ∃ p, state.1[n]? = some p ∧ p.Records h
  tracks : h.Tracks state.2
  opens : h.Opens state.2
  turn : ∃ ps, h.InTurn ps

namespace TakesTurns
variable {s : Session} {n : Nat} {h : History}

theorem begin (ht : TakesTurns (s.profilers, s.tokens) n h) (ho : h.opened? = none) (name : String)
    (bytes : UInt64) :
    TakesTurns (s.edited (.begin n name bytes)) n (h ++ s.begunEvents name bytes) := by
  obtain ⟨p, hp, hrec⟩ := ht.records
  obtain ⟨ps, hturn⟩ := ht.turn
  have hclosed := hturn.closed ho
  have hn : n < s.profilers.length := (List.getElem?_eq_some_iff.1 hp).1
  cases hr : s.bench.source.nextCounter with
  | none =>
    rw [edited_begin_of_none name bytes hp hr, begunEvents, hr]
    refine ⟨⟨_, List.getElem?_set_self hn, hrec.declare name bytes⟩,
      ht.tracks.begun_without_token name bytes none, .of_opened? ?_, ps,
      .inl (hclosed.missed name bytes)⟩
    simp [History.opened?]
  | some r =>
    rw [edited_begin_of_some name bytes hp hr, begunEvents, hr]
    have htoken := hrec.token_enter (some s.tokens.length) name bytes r
    refine ⟨⟨_, List.getElem?_set_self hn, hrec.enter _ name bytes r⟩,
      ht.tracks.begun (by rw [htoken]) rfl, ?_, ps, .inr ⟨h, _, name, bytes, r, hclosed, rfl⟩⟩
    intro number x b start hlast
    rw [List.getLast?_concat] at hlast
    cases hlast
    refine ⟨History.begin?_begun ht.tracks name bytes _, fun t hplace => ?_⟩
    rw [List.getElem?_concat_length] at hplace
    cases hplace
    rfl

/-- An end of the open section closes it; one that fails leaves it open. -/
theorem finish (ht : TakesTurns (s.profilers, s.tokens) n h) {number : Nat}
    (ho : h.opened? = some (some number)) :
    TakesTurns (s.edited (.finish n number)) n (h ++ s.endedEvents n number h) := by
  obtain ⟨p, hp, hrec⟩ := ht.records
  obtain ⟨ps, hturn⟩ := ht.turn
  obtain ⟨g, name, bytes, start, hclosed, rfl⟩ := hturn.exists_of_opened ho
  have hn : n < s.profilers.length := (List.getElem?_eq_some_iff.1 hp).1
  obtain ⟨hbegin, hstart⟩ := ht.opens number name bytes start List.getLast?_concat
  obtain ⟨reading, hmem⟩ := History.begun_of_begin? hbegin
  obtain ⟨-, hplace⟩ := ht.tracks number name bytes reading hmem
  by_cases hok : ∃ t p r, s.tokens[number]? = some (some t) ∧ s.profilers[n]? = some p ∧
      s.bench.source.nextCounter = some r
  · -- The open section is the last event, so its begin and this end stand side by side.
    obtain ⟨t, q, r, htoken, hq, hr⟩ := hok
    cases hp.symm.trans hq
    obtain ⟨hindex, hbytes⟩ := hplace t htoken
    obtain ⟨hanswer, hedited⟩ := step_finish_of_some htoken hp hr
    have hticks : (p.leave t ⟨r⟩).2 = Stamp.since ⟨r⟩ ⟨start⟩ := by
      rw [Profiler.leave_snd, hstart t htoken]
    have hevents : s.endedEvents n number (g ++ [.begun (some number) name bytes (some start)]) =
        [.ended name bytes (Stamp.since ⟨r⟩ ⟨start⟩).count r] := by
      rw [endedEvents, hanswer, hr, hbegin, hticks]
    have hleft := hrec.leave (History.mem_names_of_begun hmem) hindex r
    rw [hbytes, hticks] at hleft
    have hended := (ht.tracks.use_token number).ended name bytes (Stamp.since ⟨r⟩ ⟨start⟩).count r
    rw [List.append_assoc] at hleft hended
    rw [hedited, hevents, List.append_assoc]
    refine ⟨⟨_, List.getElem?_set_self hn, hleft⟩, hended, .of_opened? ?_, _,
      .inl (hclosed.passed (some number) name bytes start r)⟩
    simp [History.opened?]
  · obtain ⟨⟨e, hanswer⟩, hedited⟩ := step_finish_of_failure hok
    have hevents : s.endedEvents n number (g ++ [.begun (some number) name bytes (some start)]) = [] := by
      rw [endedEvents, hanswer]
    rw [hevents, List.append_nil]
    rcases hedited with hedited | hedited
    · rw [hedited]
      exact ht
    · rw [hedited]
      exact ⟨ht.records, ht.tracks.use_token number, ht.opens.use_token number, ht.turn⟩

theorem time (ht : TakesTurns (s.profilers, s.tokens) n h) (ho : h.opened? = none) (name : String)
    (ns : UInt64) : TakesTurns (s.edited (.time n name ns)) n (h ++ s.timedEvents name ns) := by
  obtain ⟨p, hp, hrec⟩ := ht.records
  obtain ⟨ps, hturn⟩ := ht.turn
  have hclosed := hturn.closed ho
  have hn : n < s.profilers.length := (List.getElem?_eq_some_iff.1 hp).1
  cases hr : s.bench.source.nextCounter with
  | none =>
    rw [edited_time_of_none name ns hp hr, timedEvents, hr]
    refine ⟨⟨_, List.getElem?_set_self hn, hrec.declare name 0⟩,
      ht.tracks.begun_without_token name 0 none, .of_opened? ?_, ps, .inl (hclosed.missed name 0)⟩
    simp [History.opened?]
  | some r =>
    have hentered := hrec.enter none name 0 r
    have hbegun := ht.tracks.begun_without_token name 0 (some r)
    rw [edited_time_of_some name ns hp hr, timedEvents, hr]
    cases hr' : (s.bench.source.afterCounter.advance ns).nextCounter with
    | none =>
      refine ⟨⟨_, List.getElem?_set_self hn, hentered⟩, hbegun, .of_opened? ?_, ps,
        .inr ⟨h, none, name, 0, r, hclosed, rfl⟩⟩
      simp [History.opened?]
    | some r' =>
      have hmem : name ∈ History.names (h ++ [.begun none name 0 (some r)]) :=
        History.mem_names_of_begun (List.mem_append_right h (List.mem_singleton.2 rfl))
      have hindex := congrArg Token.index (hrec.token_enter none name 0 r)
      have hleft := hentered.leave hmem hindex r'
      have hended := hbegun.ended name 0 (Stamp.since ⟨r'⟩ ⟨r⟩).count r'
      rw [List.append_assoc] at hleft hended
      rw [Profiler.leave_snd] at hleft
      refine ⟨⟨_, List.getElem?_set_self hn, hleft⟩, hended, .of_opened? ?_, _,
        .inl (hclosed.passed none name 0 r r')⟩
      simp [History.opened?]

theorem other (ht : TakesTurns (s.profilers, s.tokens) n h) {operation : Operation}
    (hne : operation.target? ≠ some n) : TakesTurns (s.edited operation) n h := by
  obtain ⟨p, hp, hrec⟩ := ht.records
  obtain ⟨hprofiler, htokens⟩ := s.edited_frame operation
  have hn : n < s.profilers.length := (List.getElem?_eq_some_iff.1 hp).1
  have hrecords : ∃ p, (s.edited operation).1[n]? = some p ∧ p.Records h :=
    ⟨p, (hprofiler n hn hne).trans hp, hrec⟩
  rcases htokens with htokens | ⟨t, htokens⟩ | ⟨-, number, -, htokens⟩
  · exact ⟨hrecords, htokens ▸ ht.tracks, htokens ▸ ht.opens, ht.turn⟩
  · exact ⟨hrecords, htokens ▸ ht.tracks.append_token _,
      htokens ▸ ht.opens.append_token ht.tracks _, ht.turn⟩
  · exact ⟨hrecords, htokens ▸ ht.tracks.use_token _, htokens ▸ ht.opens.use_token _, ht.turn⟩

theorem step (ht : TakesTurns (s.profilers, s.tokens) n h) {operation : Operation}
    (hin : operation.inTurn n h) :
    TakesTurns (s.edited operation) n (h ++ s.eventsOf n h operation) := by
  by_cases htarget : operation.target? = some n
  · cases operation with
    | begin m name bytes =>
      cases htarget
      rw [eventsOf, if_pos rfl]
      exact ht.begin (by simpa [Operation.inTurn] using hin) name bytes
    | finish m number =>
      cases htarget
      rw [eventsOf, if_pos rfl]
      exact ht.finish (by simpa [Operation.inTurn] using hin)
    | time m name ns =>
      cases htarget
      rw [eventsOf, if_pos rfl]
      exact ht.time (by simpa [Operation.inTurn] using hin) name ns
    | _ => cases htarget
  · have hevents : s.eventsOf n h operation = [] := by
      cases operation with
      | begin m _ _ | finish m _ | time m _ _ =>
        exact if_neg fun hm => htarget (congrArg some hm)
      | _ => rfl
    rw [hevents, List.append_nil]
    exact ht.other htarget

theorem run {operations : List Operation} (ht : TakesTurns (s.profilers, s.tokens) n h)
    (hin : s.inTurn n h operations) :
    TakesTurns ((s.run operations).2.profilers, (s.run operations).2.tokens) n
      (s.historyOf n h operations) := by
  induction operations generalizing s h with
  | nil => exact ht
  | cons operation rest ih =>
    rw [inTurn, Bool.and_eq_true] at hin
    exact ih (ht.step hin.1) hin.2

end TakesTurns

theorem sum_shares_le {parts : List Nat} {total : Nat} (h : parts.sum ≤ total) :
    (parts.map fun part : Nat => 100 * (part : ℚ) / total).sum ≤ 100 := by
  have hsum : (parts.map fun part : Nat => 100 * (part : ℚ) / total).sum =
      100 * (parts.sum : ℚ) / total := by
    clear h
    induction parts with
    | nil => simp
    | cons part parts ih =>
      rw [List.map_cons, List.sum_cons, ih, List.sum_cons, Nat.cast_add, mul_add, add_div]
  have hq : (parts.sum : ℚ) ≤ total := by exact_mod_cast h
  rw [hsum]
  exact div_le_of_le_mul₀ (Nat.cast_nonneg total) (by norm_num) (by linarith)

/-- Sections in turn account for the whole of the profiled time. A profiler is made in any session, each
of its sections ends before the next begins (the last may stay open), and its readings never go back:
then no sum is cut, the ticks of its sections and the gaps between them are the total, and the shares of
the sections are at most all of it. Every beginning of a run is a run. -/
theorem run_in_turn_total (s : Session) (frequency : UInt64) (operations : List Operation) :
    let n := s.profilers.length
    let made := (s.step (.newProfiler frequency)).2
    let h := made.historyOf n [] operations
    made.inTurn n [] operations → h.readings.Pairwise (· ≤ ·) →
      ∃ p, (made.run operations).2.profilers[n]? = some p ∧
        (p.sections.map (·.ticks.count.toNat)).sum + h.gaps.sum = p.total.count.toNat ∧
        (∀ x ∈ p.sections, x.ticks.count.toNat = h.ticksOf x.name) ∧
        (p.sections.map (·.ticks.count.toNat)).sum ≤ p.total.count.toNat ∧
        (p.sections.map fun x => 100 * (x.ticks.count.toNat : ℚ) / p.total.count.toNat).sum ≤ 100 := by
  intro n made h hin hmono
  have hnew : TakesTurns (s.edited (.newProfiler frequency)) n [] := by
    rw [edited_newProfiler]
    refine ⟨⟨_, List.getElem?_concat_length, .new frequency⟩, ?_, ?_, [], .inl .nil⟩
    · intro _ _ _ _ hmem
      exact absurd hmem List.not_mem_nil
    · intro _ _ _ _ hlast
      cases hlast
  have hrun := hnew.run hin
  obtain ⟨p, hp, hrec⟩ := hrun.records
  obtain ⟨ps, hturn⟩ := hrun.turn
  obtain ⟨hexact, htotal⟩ := hturn.sections_accounted hrec hmono
  have hle : (p.sections.map (·.ticks.count.toNat)).sum ≤ p.total.count.toNat := by omega
  have hshares := sum_shares_le hle
  rw [List.map_map] at hshares
  exact ⟨p, hp, htotal, hexact, hle, hshares⟩

/-- A section comes twice, the counter is read in between, a copy is made of a profiler with an open
section, and the last section stays open. -/
theorem run_in_turn_total_repeated :
    let s := ofSource (.script ⟨1000, [], [10, 25, 27, 30, 32, 40, 47, 60], none⟩)
    let made := (s.step (.newProfiler 1000)).2
    let operations : List Operation := [.time 0 "load" 0, .readCounter, .begin 0 "sum" 4,
      .copyProfiler 0, .finish 0 0, .time 0 "load" 0, .begin 0 "rest" 0]
    let h := made.historyOf 0 [] operations
    let p : Profiler := ⟨1000, [⟨"load", ⟨22⟩, 2, 0⟩, ⟨"sum", ⟨2⟩, 1, 4⟩, ⟨"rest", ⟨0⟩, 0, 0⟩],
      some ⟨10⟩, some ⟨47⟩⟩
    made.inTurn 0 [] operations = true ∧ h.readings.Pairwise (· ≤ ·) ∧
      (made.run operations).2.profilers[0]? = some p ∧ h.gaps = [5, 8] ∧
      (p.sections.map (·.ticks.count.toNat)).sum + h.gaps.sum = p.total.count.toNat ∧
      (p.sections.map fun x => 100 * (x.ticks.count.toNat : ℚ) / p.total.count.toNat).sum ≤ 100 := by
  intro s made operations h p
  have hin : made.inTurn 0 [] operations = true := by decide +kernel
  have hmono : h.readings.Pairwise (· ≤ ·) := by decide +kernel
  have hp : ((s.step (.newProfiler 1000)).2.run operations).2.profilers[s.profilers.length]? =
      some p := by decide +kernel
  obtain ⟨q, hq, htotal, -, -, hshares⟩ := run_in_turn_total s 1000 operations hin hmono
  obtain rfl : p = q := Option.some.inj (hp.symm.trans hq)
  exact ⟨hin, hmono, by decide +kernel, by decide +kernel, htotal, hshares⟩

end Session

end Chronometry
