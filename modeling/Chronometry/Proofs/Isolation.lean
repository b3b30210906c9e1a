import Chronometry.Proofs.Roster
import Chronometry.Proofs.SessionTrace

/-! Profilers that share a clock do not notice each other. Main statement: a profiler answers the same,
at the same times, in the session from which all else that only reads the counter is left out. -/
namespace Chronometry

/-- A trial that does not move a clock. -/
def Trial.Still {α : Type} (x : Trial α) : Prop :=
  ∀ b c, b.source = .clock c → (x b).2.source = .clock c

namespace Trial.Still
variable {α β : Type}

theorem pure (a : α) : Still (Pure.pure a : Trial α) := fun _ _ h => h

theorem bind {x : Trial α} {f : α → Trial β} (hx : Still x) (hf : ∀ a, Still (f a)) :
    Still (x >>= f) := by
  intro b c hb
  have h := hx b c hb
  rcases hxb : x b with ⟨result, b₁⟩
  rw [hxb] at h
  cases result with
  | error cause => rwa [Program.bind_of_error f hxb]
  | ok a =>
    rw [Program.bind_of_ok f hxb]
    exact hf a b₁ c h

theorem discard {x : Trial α} (hx : Still x) : Still (discard x) := hx.bind fun _ => pure ()

theorem readCounter : Still (Clocks.readCounter : Trial UInt64) := by
  intro b c hb
  have hread : b.source.nextCounter = some c.readCounter := by rw [hb, Source.nextCounter]
  rw [Trial.readCounter_of_some hread]
  change b.source.afterCounter = _
  rw [hb, Source.afterCounter]

theorem begin (p : Profiler) (name : String) (bytes : UInt64) :
    Still (p.begin name bytes : Trial _) :=
  readCounter.bind fun _ => pure _

theorem finish (p : Profiler) (t : Token) : Still (p.finish t : Trial _) := by
  apply readCounter.bind
  intro stop
  cases p.owns t
  · exact fun _ _ h => h
  · exact fun _ _ h => h

end Trial.Still

namespace Session

def Operation.profiler? : Operation → Option Nat
  | .begin n _ _ | .finish n _ | .time n _ _ | .sections n | .total n | .profilerFrequency n
  | .report n => some n
  | _ => none

theorem Operation.profiler?_of_target? {operation : Operation} {n : Nat}
    (h : operation.target? = some n) : operation.profiler? = some n := by
  cases operation with
  | begin | finish | time => exact h
  | _ => cases h

namespace Roster

/-- Whether an operation leaves profiler `p` to itself: its number is not that of a copy, its tokens end
on it, and no others do. -/
def spares (p : Nat) (r : Roster) : Operation → Bool
  | .copyProfiler n => !(n < r.profilers && r.profilers == p)
  | .finish n token => r.owners[token]?.all fun owner => (n == p) == (owner == p)
  | _ => true

def sparesAll (p : Nat) (r : Roster) : List Operation → Bool
  | [] => true
  | operation :: rest => r.spares p operation && (r.after operation).sparesAll p rest

end Roster

/-- The same operation for a profiler that has the number zero, with its tokens renumbered. -/
def Operation.renumber (f : Nat → Nat) : Operation → Operation
  | .begin _ name bytes => .begin 0 name bytes
  | .finish _ token => .finish 0 (f token)
  | .time _ name ns => .time 0 name ns
  | .sections _ => .sections 0
  | .total _ => .total 0
  | .profilerFrequency _ => .profilerFrequency 0
  | .report _ => .report 0
  | operation => operation

/-- What is left of an operation without profilers, stamps and reads of the counter alone: what has to do
with the clock, and the advance of a timed section. -/
def Operation.lasting? : Operation → Option Operation
  | .time _ _ ns => some (.advance ns)
  | .readCounter | .stamp | .elapsed _ | .since _ _ | .newProfiler _ | .copyProfiler _ | .begin ..
  | .finish .. | .sections _ | .total _ | .profilerFrequency _ | .report _ => none
  | operation => some operation

def Operation.isNew : Operation → Bool
  | .newProfiler _ => true
  | _ => false

/-- What is left of an operation in a session with no profiler but `p`. A profiler that is not there is
not missed. -/
def Roster.keep? (p : Nat) (f : Nat → Nat) (r : Roster) (operation : Operation) : Option Operation :=
  match operation.profiler? with
  | some n =>
    if n < r.profilers then
      if n = p then some (operation.renumber f) else operation.lasting?
    else none
  | none => if operation.isNew ∧ r.profilers = p then some operation else operation.lasting?

def Roster.alone (p : Nat) (f : Nat → Nat) (r : Roster) : List Operation → List Operation
  | [] => []
  | operation :: rest => (r.keep? p f operation).toList ++ (r.after operation).alone p f rest

def Error.renumber (f : Nat → Nat) : Error → Error
  | .unknown number => .unknown (f number)
  | e => e

def Answer.renumber (f : Nat → Nat) : Answer → Answer
  | .number value => .number (f value)
  | a => a

def Outcome.renumber (f : Nat → Nat) (o : Outcome) : Outcome :=
  { o with answer := (o.answer.map (Answer.renumber f)).mapError (Error.renumber f) }

/-- What an operation shows of a profiler, and when. -/
def glimpse (p : Nat) (s : Session) (operation : Operation) : List (Outcome × Option UInt64) :=
  if operation.profiler? = some p ∧ p < s.profilers.length then
    [((s.step operation).1, (s.step operation).2.now?)]
  else []

/-- The outcomes of all operations on a profiler, each with the time after it. -/
def observed (p : Nat) (s : Session) : List Operation → List (Outcome × Option UInt64)
  | [] => []
  | operation :: rest => s.glimpse p operation ++ (s.step operation).2.observed p rest

section Keep
variable {r : Roster} {p n : Nat} {f : Nat → Nat} {operation : Operation}

theorem Operation.profiler?_renumber (h : operation.profiler? = some n) (f : Nat → Nat) :
    (operation.renumber f).profiler? = some 0 := by
  cases operation with
  | begin | finish | time | sections | total | profilerFrequency | report => rfl
  | _ => cases h

namespace Roster

theorem keep?_own (hop : operation.profiler? = some p) (hp : p < r.profilers) :
    r.keep? p f operation = some (operation.renumber f) := by
  rw [keep?, hop]
  dsimp only
  rw [if_pos hp, if_pos rfl]

theorem keep?_of_unknown (hop : operation.profiler? = some n) (hn : ¬n < r.profilers) :
    r.keep? p f operation = none := by
  rw [keep?, hop]
  exact if_neg hn

theorem keep?_of_ne (hop : operation.profiler? = some n) (hn : n < r.profilers) (hne : n ≠ p) :
    r.keep? p f operation = operation.lasting? := by
  rw [keep?, hop]
  dsimp only
  rw [if_pos hn, if_neg hne]

theorem keep?_newProfiler (r : Roster) (p : Nat) (f : Nat → Nat) (frequency : UInt64) :
    r.keep? p f (.newProfiler frequency) =
      if r.profilers = p then some (.newProfiler frequency) else none := by
  change (if true = true ∧ r.profilers = p then _ else none) = _
  simp only [true_and]

theorem keep?_of_others (hop : operation.profiler? = some n)
    (hothers : operation.profiler? = some p → ¬p < r.profilers) (hlasting : operation.lasting? = none) :
    r.keep? p f operation = none := by
  by_cases hn : n < r.profilers
  · have hne : n ≠ p := fun heq => hothers (heq ▸ hop) (heq ▸ hn)
    rw [keep?_of_ne hop hn hne, hlasting]
  · exact keep?_of_unknown hop hn

end Roster

theorem Operation.profiler?_of_lasting? {operation' : Operation}
    (h : operation.lasting? = some operation') : operation'.profiler? = none := by
  cases operation with
  | readCounter | stamp | elapsed | since | newProfiler | copyProfiler | begin | finish | sections
  | total | profilerFrequency | report => cases h
  | _ =>
    cases h
    rfl

theorem Roster.profiler?_of_keep? {operation' : Operation}
    (hothers : ¬(operation.profiler? = some p ∧ p < r.profilers))
    (h : r.keep? p f operation = some operation') : operation'.profiler? = none := by
  unfold keep? at h
  split at h
  next n hop =>
    split at h
    next hn =>
      have hne : n ≠ p := fun heq => hothers ⟨heq ▸ hop, heq ▸ hn⟩
      rw [if_neg hne] at h
      exact Operation.profiler?_of_lasting? h
    next => cases h
  next hop =>
    split at h
    next => rwa [← Option.some.inj h]
    next => exact Operation.profiler?_of_lasting? h

end Keep

section Steps
variable {s s' : Session} {c : Clock} {r : Roster} {p n : Nat} {operation : Operation}

section Others

def Operation.moves : Operation → Bool
  | .readTimer | .advance _ | .calibrate .. | .measureTimer _ | .measureBoth _ | .time ..
  | .repetition .. => true
  | _ => false

theorem still_contact (s : Session) (h : operation.moves = false) :
    Trial.Still (s.contact Trial.advance operation) := by
  cases operation with
  | readCounter | stamp => exact Trial.Still.readCounter.discard
  | elapsed number =>
    dsimp only [contact]
    cases s.stamps[number]? with
    | none => exact .pure ()
    | some stamp => exact Trial.Still.readCounter.discard
  | begin n name bytes =>
    dsimp only [contact]
    cases s.profilers[n]? with
    | none => exact .pure ()
    | some q => exact (Trial.Still.begin q name bytes).discard
  | finish n token =>
    dsimp only [contact]
    split
    next t q _ _ => exact (Trial.Still.finish q t).discard
    next => exact .pure ()
  | readTimer | advance | calibrate | measureTimer | measureBoth | time | repetition => cases h
  | _ => exact .pure ()

theorem source_of_still (hc : s.bench.source = .clock c) (h : operation.moves = false) :
    (s.step operation).2.bench.source = s.bench.source := by
  rw [bench_step, still_contact s h s.fresh.bench c hc, hc]

/-- A timed section moves the clock by its action alone. -/
theorem source_time {q : Profiler} (hc : s.bench.source = .clock c) (hq : s.profilers[n]? = some q)
    (name : String) (ns : UInt64) :
    (s.step (.time n name ns)).2.bench.source = .clock (c.advance ns) := by
  let b : Bench := { s.fresh.bench.afterCounter with source := s.bench.source.afterCounter.advance ns }
  have hb : b.source = .clock (c.advance ns) := by
    change s.bench.source.afterCounter.advance ns = _
    rw [hc, Source.afterCounter, Source.advance]
  have hread : s.fresh.bench.source.nextCounter = some c.readCounter := nextCounter_of_clock hc
  have hcontact : s.contact Trial.advance (.time n name ns) =
      (discard (q.time name 0 (Trial.advance ns)) : Trial Unit) := by
    dsimp only [contact]
    rw [hq]
  rw [bench_step, hcontact]
  refine (congrArg Bench.source (Program.snd_map (fun _ => ()) _ s.fresh.bench)).trans ?_
  rw [Profiler.time, Program.bind_of_ok _ (Profiler.begin_of_some name 0 hread)]
  exact ((Trial.Still.finish _ _).bind fun _ => Trial.Still.pure _) b _ hb

theorem source_time_of_unknown (hq : s.profilers[n]? = none) (name : String) (ns : UInt64) :
    (s.step (.time n name ns)).2.bench.source = s.bench.source := by
  rw [bench_step]
  dsimp only [contact]
  rw [hq]
  rfl

/-- A profiler stays as it is as long as others are used. -/
theorem profiler_of_others (h : r.Tracks s) (hc : s.bench.source = .clock c)
    (hothers : operation.profiler? = some p → ¬p < r.profilers)
    (hnew : r.profilers = p → (r.after operation).profilers = p) :
    (s.step operation).2.profilers[p]? = s.profilers[p]? := by
  by_cases hp : p < r.profilers
  · have htarget : operation.target? ≠ some p := fun htarget =>
      hothers (Operation.profiler?_of_target? htarget) hp
    rw [← h.profilers] at hp
    exact (edited_frame s operation).1 p hp htarget
  · have hle := r.profilers_after_le operation
    have hp' : ¬p < (r.after operation).profilers := by
      by_cases heq : r.profilers = p
      · rw [hnew heq]
        omega
      · omega
    rw [(h.step hc operation).profiler_eq_none hp', h.profiler_eq_none hp]

theorem tokens_of_others (h : r.Tracks s) (hc : s.bench.source = .clock c)
    (hothers : operation.profiler? = some p → ¬p < r.profilers)
    (hspares : r.spares p operation = true) :
    owned p (r.after operation).owners (s.edited operation).2 = owned p r.owners s.tokens := by
  cases operation with
  | newProfiler frequency => rw [edited_newProfiler, Roster.after]
  | copyProfiler n =>
    rw [edited_copyProfiler, Roster.after]
    split
    · rfl
    · rfl
  | begin n name bytes =>
    rw [Roster.after]
    by_cases hn : n < r.profilers
    · obtain ⟨q, hq⟩ := h.exists_profiler hn
      have hne : n ≠ p := fun heq => hothers (congrArg some heq) (heq ▸ hn)
      rw [edited_begin_of_some name bytes hq (nextCounter_of_clock hc), if_pos hn,
        owned_concat h.tokens, if_neg hne, List.append_nil]
    · rw [edited_begin_of_unknown name bytes (h.profiler_eq_none hn), if_neg hn]
  | finish n token =>
    -- A token of the profiler would end on it, and then the profiler would be there.
    have hne : r.owners[token]? ≠ some p := by
      intro howner
      have hmine : n = p := by simpa [Roster.spares, howner] using hspares
      exact hothers (congrArg some hmine) (h.owners p (List.mem_of_getElem? howner))
    have hset : owned p r.owners (s.tokens.set token none) = _ := owned_set_of_ne hne none
    by_cases hok : ∃ t q reading, s.tokens[token]? = some (some t) ∧ s.profilers[n]? = some q ∧
        s.bench.source.nextCounter = some reading
    · obtain ⟨t, q, reading, ht, hq, hr⟩ := hok
      rw [(step_finish_of_some ht hq hr).2]
      exact hset
    · rcases (step_finish_of_failure hok).2 with hedited | hedited
      · rw [hedited]
        rfl
      · rw [hedited]
        exact hset
  | time n name ns =>
    by_cases hn : n < r.profilers
    · obtain ⟨q, hq⟩ := h.exists_profiler hn
      rw [(step_time_of_some name ns hq (nextCounter_of_clock hc) (nextCounter_of_advance hc ns)).2]
      rfl
    · rw [edited_time_of_unknown name ns (h.profiler_eq_none hn)]
      rfl
  | _ =>
    rw [edited_of_frames rfl]
    rfl

end Others

/-- The second session has what the first one has of profiler `p`, under the number zero, and the same
clock. -/
structure Mirrors (p : Nat) (r : Roster) (s s' : Session) : Prop where
  tracks : r.Tracks s
  clock : ∃ c, s.bench.source = .clock c
  source : s'.bench.source = s.bench.source
  profilers : s'.profilers = s.profilers[p]?.toList
  tokens : s'.tokens = owned p r.owners s.tokens

namespace Mirrors
variable {all : List Nat} {operation' : Operation} {q : Profiler}

/-- What the first session does with others leaves no mark in the second one but the time. -/
theorem others (h : Mirrors p r s s') (hothers : operation.profiler? = some p → ¬p < r.profilers)
    (hnew : r.profilers = p → (r.after operation).profilers = p)
    (hspares : r.spares p operation = true) {s₁ : Session}
    (hsource : s₁.bench.source = (s.step operation).2.bench.source)
    (hprofilers : s₁.profilers = s'.profilers) (htokens : s₁.tokens = s'.tokens) :
    Mirrors p (r.after operation) (s.step operation).2 s₁ := by
  obtain ⟨c, hc⟩ := h.clock
  obtain ⟨c', hc', -⟩ := step_lives hc operation
  refine ⟨h.tracks.step hc operation, ⟨c', hc'⟩, hsource, ?_, ?_⟩
  · rw [hprofilers, h.profilers, profiler_of_others h.tracks hc hothers hnew]
  · rw [htokens, h.tokens]
    exact (tokens_of_others h.tracks hc hothers hspares).symm

theorem exists_profiler (h : Mirrors p r s s') (hp : p < r.profilers) :
    ∃ q, s.profilers[p]? = some q ∧ s'.profilers = [q] ∧ s'.profilers[0]? = some q := by
  obtain ⟨q, hq⟩ := h.tracks.exists_profiler hp
  have hprofilers : s'.profilers = [q] := by rw [h.profilers, hq, Option.toList_some]
  refine ⟨q, hq, hprofilers, ?_⟩
  rw [hprofilers, List.getElem?_cons_zero]

theorem now?_eq (h : Mirrors p r s s') : s'.now? = s.now? := by
  unfold now?
  rw [h.source]

theorem bench_eq (h : Mirrors p r s s')
    (hcontact : s'.contact Trial.advance operation' = s.contact Trial.advance operation) :
    (s'.step operation').2.bench = (s.step operation).2.bench := by
  have hbench : s'.fresh.bench = s.fresh.bench := congrArg Bench.ofSource h.source
  rw [bench_step, bench_step, hcontact, hbench]

theorem own {f : Nat → Nat} (h : Mirrors p r s s')
    (hcontact : s'.contact Trial.advance operation' = s.contact Trial.advance operation)
    (hprofilers : (s'.edited operation').1 = (s.edited operation).1[p]?.toList)
    (htokens : (s'.edited operation').2 = owned p (r.after operation).owners (s.edited operation).2)
    (hanswer : (s'.step operation').1.answer = ((s.step operation).1.renumber f).answer) :
    Mirrors p (r.after operation) (s.step operation).2 (s'.step operation').2 ∧
      (s'.step operation').1 = (s.step operation).1.renumber f := by
  obtain ⟨c, hc⟩ := h.clock
  obtain ⟨c', hc', -⟩ := step_lives hc operation
  have hbench := h.bench_eq hcontact
  have hmirrors : Mirrors p (r.after operation) (s.step operation).2 (s'.step operation').2 :=
    ⟨h.tracks.step hc operation, ⟨c', hc'⟩, congrArg Bench.source hbench, hprofilers, htokens⟩
  refine ⟨hmirrors, ?_⟩
  have houtcome : (s'.step operation').1 =
      ⟨(s'.step operation').1.answer, (s'.step operation').2.bench.reads.toList,
        (s'.step operation').2.bench.records.toList⟩ := rfl
  rw [houtcome, hanswer, hbench]
  rfl

theorem unedited {f : Nat → Nat} (h : Mirrors p r s s') (hafter : r.after operation = r)
    (hcontact : s'.contact Trial.advance operation' = s.contact Trial.advance operation)
    (hedited : s.edited operation = (s.profilers, s.tokens))
    (hedited' : s'.edited operation' = (s'.profilers, s'.tokens))
    (hanswer : (s'.step operation').1.answer = ((s.step operation).1.renumber f).answer) :
    Mirrors p (r.after operation) (s.step operation).2 (s'.step operation').2 ∧
      (s'.step operation').1 = (s.step operation).1.renumber f := by
  refine h.own hcontact ?_ ?_ hanswer
  · rw [hedited, hedited']
    exact h.profilers
  · rw [hedited, hedited', hafter]
    exact h.tokens

theorem place (h : Mirrors p r s s') {token : Nat} (hspares : r.spares p (.finish p token) = true)
    (hall : r.owners <+: all) :
    s'.tokens[rank p all token]? = s.tokens[token]? ∧
      s'.tokens.set (rank p all token) none = owned p r.owners (s.tokens.set token none) := by
  have hlength := length_owned (p := p) h.tracks.tokens
  rw [h.tokens]
  by_cases ht : token < r.owners.length
  · have howner : r.owners[token]? = some p := by
      have hget := List.getElem?_eq_getElem ht
      have hmine : r.owners[token] = p := by simpa [Roster.spares, hget] using hspares
      rw [hget, hmine]
    rw [rank_eq_of_le hall (Nat.le_of_lt ht)]
    exact ⟨getElem?_owned h.tracks.tokens howner, (owned_set h.tracks.tokens howner none).symm⟩
  · have hle := count_le_rank (p := p) hall (Nat.not_lt.1 ht)
    have htokens := h.tracks.tokens
    rw [List.getElem?_eq_none (by omega), List.getElem?_eq_none (by omega),
      List.set_eq_of_length_le (by omega), List.set_eq_of_length_le (by omega)]
    exact ⟨rfl, rfl⟩

theorem begin (h : Mirrors p r s s') (hp : p < r.profilers) (hall : r.owners ++ [p] <+: all)
    (name : String) (bytes : UInt64) :
    Mirrors p (r.after (.begin p name bytes)) (s.step (.begin p name bytes)).2
        (s'.step (.begin 0 name bytes)).2 ∧
      (s'.step (.begin 0 name bytes)).1 =
        (s.step (.begin p name bytes)).1.renumber (rank p all) := by
  obtain ⟨c, hc⟩ := h.clock
  obtain ⟨q, hq, hprofilers, hq'⟩ := h.exists_profiler hp
  have hp' : p < s.profilers.length := h.tracks.profilers.symm ▸ hp
  obtain ⟨hanswer, hedited⟩ := step_begin_of_some name bytes hq (nextCounter_of_clock hc)
  obtain ⟨hanswer', hedited'⟩ :=
    step_begin_of_some name bytes hq' (nextCounter_of_clock (h.source.trans hc))
  have hnumber : s'.tokens.length = rank p all s.tokens.length := by
    have howners : r.owners <+: all := (List.prefix_append _ _).trans hall
    rw [h.tokens, length_owned h.tracks.tokens, rank_eq_of_le howners (Nat.le_of_eq h.tracks.tokens),
      h.tracks.tokens, rank, List.take_length]
  apply h.own
  · dsimp only [contact]
    rw [hq, hq']
  · rw [hedited, hedited', hprofilers, List.getElem?_set_self hp']
    rfl
  · rw [hedited, hedited', Roster.after, if_pos hp, owned_concat h.tracks.tokens, if_pos rfl, h.tokens]
  · rw [hanswer', Outcome.renumber, hanswer, hnumber]
    rfl

theorem finish (h : Mirrors p r s s') (hp : p < r.profilers) {token : Nat}
    (hspares : r.spares p (.finish p token) = true) (hall : r.owners <+: all) :
    Mirrors p (r.after (.finish p token)) (s.step (.finish p token)).2
        (s'.step (.finish 0 (rank p all token))).2 ∧
      (s'.step (.finish 0 (rank p all token))).1 =
        (s.step (.finish p token)).1.renumber (rank p all) := by
  obtain ⟨c, hc⟩ := h.clock
  obtain ⟨q, hq, hprofilers, hq'⟩ := h.exists_profiler hp
  have hp' : p < s.profilers.length := h.tracks.profilers.symm ▸ hp
  obtain ⟨hplace, hset⟩ := h.place hspares hall
  have hcontact : s'.contact Trial.advance (.finish 0 (rank p all token)) =
      s.contact Trial.advance (.finish p token) := by
    dsimp only [contact]
    rw [hplace, hq, hq']
  cases ht : s.tokens[token]? with
  | none =>
    obtain ⟨hanswer, hedited⟩ := step_finish_of_unknown (n := p) ht
    obtain ⟨hanswer', hedited'⟩ := step_finish_of_unknown (n := 0) (hplace.trans ht)
    apply h.unedited rfl hcontact hedited hedited'
    rw [hanswer', Outcome.renumber, hanswer]
    rfl
  | some place =>
    cases place with
    | none =>
      obtain ⟨hanswer, hedited⟩ := step_finish_of_used (n := p) ht
      obtain ⟨hanswer', hedited'⟩ := step_finish_of_used (n := 0) (hplace.trans ht)
      apply h.unedited rfl hcontact hedited hedited'
      rw [hanswer', Outcome.renumber, hanswer]
      rfl
    | some t =>
      obtain ⟨hanswer, hedited⟩ := step_finish_of_some ht hq (nextCounter_of_clock hc)
      obtain ⟨hanswer', hedited'⟩ := step_finish_of_some (hplace.trans ht) hq'
        (nextCounter_of_clock (h.source.trans hc))
      apply h.own hcontact
      · rw [hedited, hedited', hprofilers, List.getElem?_set_self hp']
        rfl
      · rw [hedited, hedited']
        exact hset
      · rw [hanswer', Outcome.renumber, hanswer]
        rfl

theorem time (h : Mirrors p r s s') (hp : p < r.profilers) (f : Nat → Nat) (name : String)
    (ns : UInt64) :
    Mirrors p (r.after (.time p name ns)) (s.step (.time p name ns)).2 (s'.step (.time 0 name ns)).2 ∧
      (s'.step (.time 0 name ns)).1 = (s.step (.time p name ns)).1.renumber f := by
  obtain ⟨c, hc⟩ := h.clock
  obtain ⟨q, hq, hprofilers, hq'⟩ := h.exists_profiler hp
  have hc' := h.source.trans hc
  have hp' : p < s.profilers.length := h.tracks.profilers.symm ▸ hp
  obtain ⟨hanswer, hedited⟩ := step_time_of_some name ns hq (nextCounter_of_clock hc)
    (nextCounter_of_advance hc ns)
  obtain ⟨hanswer', hedited'⟩ := step_time_of_some name ns hq' (nextCounter_of_clock hc')
    (nextCounter_of_advance hc' ns)
  apply h.own
  · dsimp only [contact]
    rw [hq, hq']
  · rw [hedited, hedited', hprofilers]
    dsimp only
    rw [List.getElem?_set_self hp']
    rfl
  · rw [hedited, hedited']
    exact h.tokens
  · rw [hanswer', Outcome.renumber, hanswer]
    rfl

theorem look (h : Mirrors p r s s') (hp : p < r.profilers) (f : Nat → Nat)
    (operation : Nat → Operation) (view : Profiler → Answer)
    (hperform : ∀ n, Step.perform (operation n) = do return view (← Step.profiler n))
    (hview : ∀ q, (view q).renumber f = view q) (hedits : ∀ n, (operation n).edits = false)
    (hafter : r.after (operation p) = r)
    (hcontact : ∀ s n, contact Trial.advance s (operation n) = pure ()) :
    Mirrors p (r.after (operation p)) (s.step (operation p)).2 (s'.step (operation 0)).2 ∧
      (s'.step (operation 0)).1 = (s.step (operation p)).1.renumber f := by
  obtain ⟨q, hq, -, hq'⟩ := h.exists_profiler hp
  have hanswer : ∀ {s : Session} {n : Nat}, s.profilers[n]? = some q →
      (s.step (operation n)).1.answer = .ok (view q) := by
    intro s n hn
    change (Step.perform (operation n) s.fresh).1 = _
    rw [hperform, Program.bind_of_ok _ (Step.profiler_of_some (s := s.fresh) hn)]
    rfl
  have hcontacts := (hcontact s' 0).trans (hcontact s p).symm
  apply h.unedited hafter hcontacts (edited_of_frames (hedits p)) (edited_of_frames (hedits 0))
  rw [hanswer hq', Outcome.renumber, hanswer hq]
  exact congrArg Except.ok (hview q).symm

theorem step_own (h : Mirrors p r s s') (hp : p < r.profilers) (hop : operation.profiler? = some p)
    (hspares : r.spares p operation = true) (hall : (r.after operation).owners <+: all) :
    Mirrors p (r.after operation) (s.step operation).2
        (s'.step (operation.renumber (rank p all))).2 ∧
      (s'.step (operation.renumber (rank p all))).1 = (s.step operation).1.renumber (rank p all) := by
  cases operation with
  | begin n name bytes =>
    cases hop
    rw [Roster.after, if_pos hp] at hall
    exact h.begin hp hall name bytes
  | finish n token =>
    cases hop
    exact h.finish hp hspares hall
  | time n name ns =>
    cases hop
    exact h.time hp (rank p all) name ns
  | sections n =>
    cases hop
    exact h.look hp _ .sections (fun q => .sections q.sections) (fun _ => rfl) (fun _ => rfl)
      (fun _ => rfl) rfl fun _ _ => rfl
  | total n =>
    cases hop
    exact h.look hp _ .total (fun q => .word q.total.count) (fun _ => rfl) (fun _ => rfl)
      (fun _ => rfl) rfl fun _ _ => rfl
  | profilerFrequency n =>
    cases hop
    exact h.look hp _ .profilerFrequency (fun q => .word q.frequency) (fun _ => rfl) (fun _ => rfl)
      (fun _ => rfl) rfl fun _ _ => rfl
  | report n =>
    cases hop
    exact h.look hp _ .report (fun q => .profile q.report) (fun _ => rfl) (fun _ => rfl)
      (fun _ => rfl) rfl fun _ _ => rfl
  | _ => cases hop

theorem made (h : Mirrors p r s s') (hp : r.profilers = p) (frequency : UInt64) :
    Mirrors p (r.after (.newProfiler frequency)) (s.step (.newProfiler frequency)).2
      (s'.step (.newProfiler frequency)).2 := by
  obtain ⟨c, hc⟩ := h.clock
  have hlength : s.profilers.length = p := h.tracks.profilers.trans hp
  have hprofilers : s'.profilers = [] := by
    rw [h.profilers, h.tracks.profiler_eq_none (by omega), Option.toList_none]
  refine ⟨h.tracks.newProfiler frequency, ⟨c, hc⟩, h.source, ?_, h.tokens⟩
  change s'.profilers ++ [.new frequency] = (s.profilers ++ [.new frequency])[p]?.toList
  rw [hprofilers, ← hlength, List.getElem?_concat_length]
  rfl

section Skipped

theorem skip (h : Mirrors p r s s') (hothers : operation.profiler? = some p → ¬p < r.profilers)
    (hnew : r.profilers = p → (r.after operation).profilers = p)
    (hspares : r.spares p operation = true) (hmoves : operation.moves = false) :
    Mirrors p (r.after operation) (s.step operation).2 s' := by
  obtain ⟨c, hc⟩ := h.clock
  have hsource := h.source.trans (source_of_still hc hmoves).symm
  exact h.others hothers hnew hspares hsource rfl rfl

theorem keep (h : Mirrors p r s s') (hop : operation.profiler? = none)
    (hafter : r.after operation = r) (hspares : r.spares p operation = true)
    (hedits : operation.edits = false)
    (hcontact : s'.contact Trial.advance operation = s.contact Trial.advance operation) :
    Mirrors p (r.after operation) (s.step operation).2 (s'.step operation).2 := by
  have hedited := edited_of_frames (s := s') hedits
  have hnone : operation.profiler? = some p → ¬p < r.profilers := fun hmine => by
    cases hop.symm.trans hmine
  exact h.others hnone (fun heq => by rw [hafter, heq]) hspares
    (congrArg Bench.source (h.bench_eq hcontact)) (congrArg Prod.fst hedited)
    (congrArg Prod.snd hedited)

theorem time_others (h : Mirrors p r s s') (hn : n < r.profilers) (hne : n ≠ p) (name : String)
    (ns : UInt64) :
    Mirrors p (r.after (.time n name ns)) (s.step (.time n name ns)).2
      (s'.step (.advance ns)).2 := by
  obtain ⟨c, hc⟩ := h.clock
  obtain ⟨q, hq⟩ := h.tracks.exists_profiler hn
  have hsource : (s'.step (.advance ns)).2.bench.source = .clock (c.advance ns) := by
    change s'.bench.source.advance ns = _
    rw [h.source, hc, Source.advance]
  have hothers : (Operation.time n name ns).profiler? = some p → ¬p < r.profilers := fun hmine =>
    absurd (Option.some.inj hmine) hne
  exact h.others hothers id rfl (hsource.trans (source_time hc hq name ns).symm) rfl rfl

end Skipped

theorem step_others (h : Mirrors p r s s') (f : Nat → Nat)
    (hothers : operation.profiler? = some p → ¬p < r.profilers)
    (hspares : r.spares p operation = true) :
    Mirrors p (r.after operation) (s.step operation).2 (s'.run (r.keep? p f operation).toList).2 := by
  cases operation with
  | newProfiler frequency =>
    rw [Roster.keep?_newProfiler]
    by_cases hp : r.profilers = p
    · rw [if_pos hp]
      exact h.made hp frequency
    · rw [if_neg hp]
      exact h.skip hothers (fun heq => absurd heq hp) hspares rfl
  | copyProfiler n =>
    have hnew : r.profilers = p → (r.after (.copyProfiler n)).profilers = p := by
      intro heq
      have hn : ¬n < r.profilers := by simpa [Roster.spares, heq] using hspares
      rw [Roster.after, if_neg hn, heq]
    exact h.skip hothers hnew hspares rfl
  | begin n name bytes =>
    have hnew : (r.after (.begin n name bytes)).profilers = r.profilers := by
      rw [Roster.after]
      split
      · rfl
      · rfl
    rw [Roster.keep?_of_others rfl hothers rfl]
    exact h.skip hothers hnew.trans hspares rfl
  | time n name ns =>
    by_cases hn : n < r.profilers
    · have hne : n ≠ p := fun heq => hothers (congrArg some heq) (heq ▸ hn)
      rw [Roster.keep?_of_ne rfl hn hne]
      exact h.time_others hn hne name ns
    · have hsource := source_time_of_unknown (h.tracks.profiler_eq_none hn) name ns
      rw [Roster.keep?_of_unknown rfl hn]
      exact h.others hothers id rfl (h.source.trans hsource.symm) rfl rfl
  | finish | sections | total | profilerFrequency | report =>
    rw [Roster.keep?_of_others rfl hothers rfl]
    exact h.skip hothers id hspares rfl
  | readCounter | stamp | elapsed | since => exact h.skip hothers id rfl rfl
  | _ => exact h.keep rfl rfl rfl rfl rfl

/-- One operation: the profiler shows the same, and the sessions go on alike. -/
theorem step (h : Mirrors p r s s') (hspares : r.spares p operation = true)
    (hall : (r.after operation).owners <+: all) :
    let kept := (r.keep? p (rank p all) operation).toList
    Mirrors p (r.after operation) (s.step operation).2 (s'.run kept).2 ∧
      s'.observed 0 kept =
        (s.glimpse p operation).map fun shown => (shown.1.renumber (rank p all), shown.2) := by
  intro kept
  unfold glimpse
  rw [h.tracks.profilers]
  by_cases hmine : operation.profiler? = some p ∧ p < r.profilers
  · obtain ⟨hop, hp⟩ := hmine
    have hkept : kept = [operation.renumber (rank p all)] := by
      rw [show kept = (r.keep? p _ operation).toList from rfl, Roster.keep?_own hop hp]
      rfl
    obtain ⟨hmirrors, houtcome⟩ := h.step_own hp hop hspares hall
    obtain ⟨q, -, hprofilers, -⟩ := h.exists_profiler hp
    have hglimpse : (operation.renumber (rank p all)).profiler? = some 0 ∧ 0 < s'.profilers.length := by
      rw [hprofilers]
      exact ⟨Operation.profiler?_renumber hop _, Nat.one_pos⟩
    rw [hkept, if_pos ⟨hop, hp⟩]
    refine ⟨hmirrors, ?_⟩
    rw [observed, glimpse, if_pos hglimpse, houtcome, hmirrors.now?_eq]
    rfl
  · rw [if_neg hmine]
    refine ⟨h.step_others (rank p all) (fun hop hp => hmine ⟨hop, hp⟩) hspares, ?_⟩
    cases hkeep : r.keep? p (rank p all) operation with
    | none =>
      rw [show kept = (r.keep? p _ operation).toList from rfl, hkeep]
      rfl
    | some operation' =>
      have hnone := Roster.profiler?_of_keep? hmine hkeep
      rw [show kept = (r.keep? p _ operation).toList from rfl, hkeep, Option.toList_some, observed,
        glimpse, hnone]
      rfl

end Mirrors

end Steps

theorem observed_append (p : Nat) (s : Session) (operations later : List Operation) :
    s.observed p (operations ++ later) =
      s.observed p operations ++ (s.run operations).2.observed p later := by
  induction operations generalizing s with
  | nil => rfl
  | cons operation rest ih =>
    rw [List.cons_append, observed, observed, ih, List.append_assoc]
    rfl

/-- Whole sessions: the profiler shows the same, and at the end they are alike. -/
theorem Mirrors.run {p : Nat} {r : Roster} {s s' : Session} {operations : List Operation}
    {all : List Nat} (h : Mirrors p r s s') (hspares : r.sparesAll p operations = true)
    (hall : (r.afterAll operations).owners <+: all) :
    let rest := r.alone p (rank p all) operations
    Mirrors p (r.afterAll operations) (s.run operations).2 (s'.run rest).2 ∧
      s'.observed 0 rest =
        (s.observed p operations).map fun shown => (shown.1.renumber (rank p all), shown.2) := by
  induction operations generalizing r s s' with
  | nil => exact ⟨h, rfl⟩
  | cons operation later ih =>
    intro rest
    rw [Roster.sparesAll, Bool.and_eq_true] at hspares
    have hnext := ((r.after operation).owners_afterAll later).trans hall
    obtain ⟨hstep, hshown⟩ := h.step hspares.1 hnext
    obtain ⟨hlater, hlaterShown⟩ := ih hstep hspares.2 hall
    have hrest : rest = (r.keep? p (rank p all) operation).toList ++
        (r.after operation).alone p (rank p all) later := rfl
    rw [hrest, run_append, observed_append, hshown, hlaterShown, observed, List.map_append]
    exact ⟨hlater, rfl⟩

/-- A profiler does not notice the others on its clock. In a session in which number `p` is not a copy and
its tokens and no others end on it, leave out all other profilers with what is done with them, all stamps
and all reads of the counter alone, and put the advance in the place of each section that another profiler
times. Every operation on the profiler then has the same outcome at the same time, the tokens being
numbered without those of others, and the sessions end at the same time with the same profiler. -/
theorem run_alone (c : Clock) (p : Nat) (operations : List Operation)
    (hspares : Roster.empty.sparesAll p operations = true) :
    let s := ofSource (.clock c)
    let number := rank p (Roster.empty.afterAll operations).owners
    let rest := Roster.empty.alone p number operations
    s.observed 0 rest =
        (s.observed p operations).map (fun shown => (shown.1.renumber number, shown.2)) ∧
      (s.run rest).2.now? = (s.run operations).2.now? ∧
      (s.run rest).2.profilers = (s.run operations).2.profilers[p]?.toList := by
  intro s number rest
  have hstart : Mirrors p .empty s s := ⟨⟨rfl, rfl, by simp [Roster.empty]⟩, ⟨c, rfl⟩, rfl, rfl, rfl⟩
  obtain ⟨hend, hshown⟩ := hstart.run hspares List.prefix_rfl
  exact ⟨hshown, hend.now?_eq, hend.profilers⟩

/-- Number one among its elder, which times a section meanwhile, and its own copy, with sections that
overlap. -/
theorem run_alone_interleaved :
    let c := Clock.withStep 1000 3000000000 1
    let s := ofSource (.clock c)
    let operations : List Operation :=
      [.newProfiler 5, .newProfiler 1000, .begin 0 "a" 1, .advance 10, .begin 1 "x" 64,
        .copyProfiler 1, .readCounter, .time 0 "b" 7, .stamp, .begin 2 "y" 0, .readTimer, .finish 1 1,
        .finish 2 2, .finish 0 0, .sections 0, .report 1]
    let rest : List Operation :=
      [.newProfiler 1000, .advance 10, .begin 0 "x" 64, .advance 7, .readTimer, .finish 0 0, .report 0]
    Roster.empty.sparesAll 1 operations = true ∧
      s.observed 0 rest =
        (s.observed 1 operations).map (fun shown => (shown.1.renumber (rank 1 [0, 1, 2]), shown.2)) ∧
      (s.run rest).2.now? = (s.run operations).2.now? ∧
      (s.run rest).2.profilers = (s.run operations).2.profilers[1]?.toList := by
  intro c s operations rest
  have hspares : Roster.empty.sparesAll 1 operations = true := rfl
  have howners : (Roster.empty.afterAll operations).owners = [0, 1, 2] := rfl
  have hrest : Roster.empty.alone 1 (rank 1 [0, 1, 2]) operations = rest := rfl
  have hshown := run_alone c 1 operations hspares
  simp only [howners, hrest] at hshown
  -- Without this, the two sides are compared by running both sessions.
  clear_value rest operations
  exact ⟨hspares, hshown⟩

end Session

end Chronometry
