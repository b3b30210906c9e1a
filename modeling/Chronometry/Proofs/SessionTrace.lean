import Chronometry.Proofs.SessionStep
import Chronometry.Proofs.Tracing

/-! The traces of whole sessions. An operation acts on the bench through one program, which runs on the
bench itself and also on a bench that keeps a trace. -/
namespace Chronometry

namespace Session

section Contact
variable {m : Type → Type} [Monad m] [Clocks m] [Logger m] [Worker m]

/-- What an operation does on the bench, for any bench whose clock can be advanced. -/
def contact (advance : UInt64 → m Unit) (s : Session) : Operation → m Unit
  | .readTimer => discard Clocks.readTimer
  | .readCounter | .stamp => discard Clocks.readCounter
  | .advance ns => advance ns
  | .calibrate waitMs _ => discard (Chronometry.calibrate waitMs)
  | .measureTimer target => discard (Chronometry.measureTimer target)
  | .measureBoth target => discard (Chronometry.measureBoth target)
  | .elapsed number =>
    match s.stamps[number]? with
    | some _ => discard Clocks.readCounter
    | none => pure ()
  | .begin number name bytes =>
    match s.profilers[number]? with
    | some p => discard (p.begin name bytes)
    | none => pure ()
  | .finish number token =>
    match s.tokens[token]?, s.profilers[number]? with
    | some (some t), some p => discard (p.finish t)
    | _, _ => pure ()
  | .time number name ns =>
    match s.profilers[number]? with
    | some p => discard (p.time name 0 (advance ns))
    | none => pure ()
  | .repetition tester bytes works =>
    discard (Repetition.repeatFor tester bytes fun run =>
      match works[run % works.length]? with
      | some ns => advance ns
      | none => pure ())
  | .frequency | .reported | .since _ _ | .newProfiler _ | .copyProfiler _ | .sections _ | .total _
  | .profilerFrequency _ | .report _ => pure ()

end Contact

theorem traces_contact (s : Session) (operation : Operation) :
    Traces (s.contact Traced.advance operation) (s.contact Trial.advance operation) := by
  cases operation with
  | readTimer => exact Traces.readTimer.map _
  | readCounter => exact Traces.readCounter.map _
  | stamp => exact Traces.readCounter.map _
  | advance ns => exact .advance ns
  | calibrate waitMs => exact (traces_calibrate waitMs).map _
  | measureTimer target => exact (traces_measureTimer target).map _
  | measureBoth target => exact (traces_measureBoth target).map _
  | elapsed number =>
    dsimp only [contact]
    cases s.stamps[number]? with
    | none => exact .pure ()
    | some stamp => exact Traces.readCounter.map _
  | begin number name bytes =>
    dsimp only [contact]
    cases s.profilers[number]? with
    | none => exact .pure ()
    | some p => exact (p.traces_begin name bytes).map _
  | finish number token =>
    dsimp only [contact]
    split
    next t p _ _ => exact (p.traces_finish t).map _
    next => exact .pure ()
  | time number name ns =>
    dsimp only [contact]
    cases s.profilers[number]? with
    | none => exact .pure ()
    | some p => exact (p.traces_time name 0 (.advance ns)).map _
  | repetition tester bytes works =>
    refine .map _ (Repetition.traces_repeatFor (fun run => ?_) tester bytes)
    cases works[run % works.length]? with
    | none => exact .pure ()
    | some ns => exact .advance ns
  | _ => exact .pure ()

namespace Step
variable {α β : Type}

theorem bench_onBench (x : Trial α) (s : Session) : (onBench x s).2.bench = (x s.bench).2 := by
  rcases hx : x s.bench with ⟨result, b⟩
  cases result with
  | ok a => rw [onBench_of_ok hx]
  | error cause => rw [onBench_of_error hx]

/-- What comes after does not matter to the bench if it leaves the bench alone. -/
theorem bench_bind (x : Step α) {f : α → Step β} (hf : ∀ a s, (f a s).2.bench = s.bench)
    (s : Session) : ((x >>= f) s).2.bench = (x s).2.bench := by
  rcases hx : x s with ⟨result, s₁⟩
  cases result with
  | ok a => rw [Program.bind_of_ok f hx, hf]
  | error e => rw [Program.bind_of_error f hx]

theorem bench_onBench_bind (x : Trial α) {f : α → Step β} (hf : ∀ a s, (f a s).2.bench = s.bench)
    (s : Session) : ((onBench x >>= f) s).2.bench = (discard x s.bench).2 := by
  rw [bench_bind _ hf, bench_onBench]
  exact (Program.snd_map (fun _ => ()) x s.bench).symm

theorem bench_lookup_bind (all : List α) (number : Nat) {f : α → Step β}
    (hf : ∀ a s, (f a s).2.bench = s.bench) (s : Session) :
    ((lookup all number >>= f) s).2.bench = s.bench := by
  rw [bench_bind _ hf]
  cases h : all[number]? with
  | none => rw [lookup_of_none h]
  | some a => rw [lookup_of_some h]

theorem bench_enter {n : Nat} {p : Profiler} {s : Session} (name : String) (bytes : UInt64)
    (hp : s.profilers[n]? = some p) :
    (enter n name bytes s).2.bench = (discard (p.begin name bytes : Trial _) s.bench).2 := by
  unfold enter
  rw [Program.bind_of_ok _ (profiler_of_some hp), Program.bind_of_ok _ (setProfiler_apply _ _ _)]
  exact bench_onBench_bind (p.begin name bytes) (fun _ _ => rfl) _

theorem bench_leave {n : Nat} {p : Profiler} {s : Session} (t : Token) (hp : s.profilers[n]? = some p) :
    (leave n t s).2.bench = (discard (p.finish t : Trial _) s.bench).2 := by
  unfold leave
  rw [Program.bind_of_ok _ (profiler_of_some hp)]
  exact bench_onBench_bind (p.finish t) (fun _ _ => rfl) _

end Step

section Bench
variable (s : Session)

theorem bench_elapsed (number : Nat) : (s.step (.elapsed number)).2.bench =
    (s.contact Trial.advance (.elapsed number) s.fresh.bench).2 := by
  change ((Step.lookup s.stamps number >>= _) s.fresh).2.bench = _
  dsimp only [contact]
  cases hn : s.stamps[number]? with
  | none =>
    rw [Program.bind_of_error _ (Step.lookup_of_none hn s.fresh)]
    rfl
  | some earlier =>
    rw [Program.bind_of_ok _ (Step.lookup_of_some hn s.fresh)]
    exact Step.bench_onBench_bind Clocks.readCounter (fun _ _ => rfl) s.fresh

theorem bench_begin (number : Nat) (name : String) (bytes : UInt64) :
    (s.step (.begin number name bytes)).2.bench =
      (s.contact Trial.advance (.begin number name bytes) s.fresh.bench).2 := by
  change ((Step.enter number name bytes >>= _) s.fresh).2.bench = _
  dsimp only [contact]
  cases hp : s.profilers[number]? with
  | none =>
    rw [Program.bind_of_error _ (Step.enter_of_unknown (s := s.fresh) name bytes hp)]
    rfl
  | some p =>
    rw [Step.bench_bind _ (fun _ _ => rfl)]
    exact Step.bench_enter name bytes hp

theorem bench_finish (number token : Nat) : (s.step (.finish number token)).2.bench =
    (s.contact Trial.advance (.finish number token) s.fresh.bench).2 := by
  change ((Step.takeToken token >>= _) s.fresh).2.bench = _
  dsimp only [contact]
  cases ht : s.tokens[token]? with
  | none =>
    rw [Program.bind_of_error _ (Step.takeToken_of_unknown (s := s.fresh) ht)]
    rfl
  | some place =>
    cases place with
    | none =>
      rw [Program.bind_of_error _ (Step.takeToken_of_used (s := s.fresh) ht)]
      rfl
    | some t =>
      rw [Program.bind_of_ok _ (Step.takeToken_of_some (s := s.fresh) ht),
        Step.bench_bind _ (fun _ _ => rfl)]
      let s₁ : Session := { s.fresh with tokens := s.tokens.set token none }
      cases hp : s.profilers[number]? with
      | none =>
        change (Step.leave number t s₁).2.bench = _
        rw [Step.leave_of_unknown (s := s₁) t hp]
        rfl
      | some p => exact Step.bench_leave (s := s₁) t hp

/-- The profiler that ends the timed section is the one that began it. -/
theorem bench_time (number : Nat) (name : String) (ns : UInt64) :
    (s.step (.time number name ns)).2.bench =
      (s.contact Trial.advance (.time number name ns) s.fresh.bench).2 := by
  change ((Step.enter number name 0 >>= _) s.fresh).2.bench = _
  dsimp only [contact]
  cases hp : s.profilers[number]? with
  | none =>
    rw [Program.bind_of_error _ (Step.enter_of_unknown (s := s.fresh) name 0 hp)]
    rfl
  | some p =>
    change _ = (discard (p.time name 0 (Trial.advance ns) : Trial Profiler) s.fresh.bench).2
    refine Eq.trans ?_ (Program.snd_map (fun _ => ()) _ s.fresh.bench).symm
    rw [Profiler.time]
    cases hr : s.bench.source.nextCounter with
    | none =>
      rw [Program.bind_of_error _ (Step.enter_of_none (s := s.fresh) name 0 hp hr),
        Program.bind_of_error _ (Profiler.begin_of_none (b := s.fresh.bench) name 0 hr)]
    | some r =>
      rw [Program.bind_of_ok _ (Step.enter_of_some (s := s.fresh) name 0 hp hr),
        Program.bind_of_ok _ (Profiler.begin_of_some (b := s.fresh.bench) name 0 hr)]
      -- Both sides have now read the counter once. The session finds the profiler again under its number.
      let q := (p.enter name 0 ⟨r⟩).1
      let t := (p.enter name 0 ⟨r⟩).2
      let b : Bench := { s.fresh.bench.afterCounter with
        source := s.bench.source.afterCounter.advance ns }
      let s₁ : Session := { s.fresh with profilers := s.profilers.set number q, bench := b }
      have hq : s₁.profilers[number]? = some q := by
        obtain ⟨hn, -⟩ := List.getElem?_eq_some_iff.1 hp
        exact List.getElem?_set_self hn
      calc
        ((discard (Step.leave number t) >>= fun _ => pure (.word ns) : Step Answer) s₁).2.bench
        _ = (discard (Step.leave number t) s₁).2.bench := Step.bench_bind _ (fun _ _ => rfl) s₁
        _ = (Step.leave number t s₁).2.bench :=
          congrArg Session.bench (Program.snd_map (fun _ => ()) _ s₁)
        _ = (discard (q.finish t : Trial _) b).2 := Step.bench_leave t hq
        _ = ((q.finish t : Trial _) b).2 := Program.snd_map (fun _ => ()) _ b
        _ = ((Prod.fst <$> q.finish t : Trial Profiler) b).2 := (Program.snd_map _ _ b).symm

theorem bench_step (operation : Operation) :
    (s.step operation).2.bench = (s.contact Trial.advance operation s.fresh.bench).2 := by
  change (Step.perform operation s.fresh).2.bench = _
  cases operation with
  | readTimer => exact Step.bench_onBench_bind Clocks.readTimer (fun _ _ => rfl) s.fresh
  | readCounter => exact Step.bench_onBench_bind Clocks.readCounter (fun _ _ => rfl) s.fresh
  | stamp => exact Step.bench_onBench_bind Clocks.readCounter (fun _ _ => rfl) s.fresh
  | advance ns => rfl
  | calibrate waitMs silent =>
    refine Step.bench_onBench_bind (Chronometry.calibrate waitMs) (fun result s => ?_) s.fresh
    cases result with
    | error cause => rfl
    | ok calibration => rfl
  | measureTimer target =>
    exact Step.bench_onBench_bind (Chronometry.measureTimer target) (fun _ _ => rfl) s.fresh
  | measureBoth target =>
    exact Step.bench_onBench_bind (Chronometry.measureBoth target) (fun _ _ => rfl) s.fresh
  | elapsed number => exact s.bench_elapsed number
  | begin number name bytes => exact s.bench_begin number name bytes
  | finish number token => exact s.bench_finish number token
  | time number name ns => exact s.bench_time number name ns
  | repetition tester bytes works =>
    refine Step.bench_onBench_bind (Repetition.repeatFor tester bytes (Step.workOf works))
      (fun result s => ?_) s.fresh
    cases result with
    | error cause => rfl
    | ok report => rfl
  | frequency => rfl
  | reported => rfl
  | since later earlier =>
    refine Step.bench_lookup_bind s.stamps later (fun _ s => ?_) s.fresh
    exact Step.bench_lookup_bind s.stamps earlier (fun _ _ => rfl) s
  | newProfiler frequency => rfl
  | copyProfiler number => exact Step.bench_lookup_bind s.profilers number (fun _ _ => rfl) s.fresh
  | sections number => exact Step.bench_lookup_bind s.profilers number (fun _ _ => rfl) s.fresh
  | total number => exact Step.bench_lookup_bind s.profilers number (fun _ _ => rfl) s.fresh
  | profilerFrequency number =>
    exact Step.bench_lookup_bind s.profilers number (fun _ _ => rfl) s.fresh
  | report number => exact Step.bench_lookup_bind s.profilers number (fun _ _ => rfl) s.fresh

end Bench

def traceOf (s : Session) (operation : Operation) : Trace :=
  (s.contact Traced.advance operation s.fresh.bench).2

def trace (s : Session) : List Operation → Trace
  | [] => []
  | operation :: rest => s.traceOf operation ++ (s.step operation).2.trace rest

theorem trace_append (s : Session) (operations later : List Operation) :
    s.trace (operations ++ later) = s.trace operations ++ (s.run operations).2.trace later := by
  induction operations generalizing s with
  | nil => rfl
  | cons operation rest ih =>
    rw [List.cons_append, trace, trace, ih, List.append_assoc]
    rfl

section Lives
variable {s : Session} {c : Clock}

/-- An operation lets the clock go through its acts, and reports the reads among them. -/
theorem step_lives (hc : s.bench.source = .clock c) (operation : Operation) :
    ∃ c', (s.step operation).2.bench.source = .clock c' ∧ c.Lives (s.traceOf operation) c' ∧
      (s.step operation).1.reads = (s.traceOf operation).probes := by
  obtain ⟨c', hc', hlives, hreads⟩ := (s.traces_contact operation s.fresh.bench).2 c hc
  rw [← bench_step] at hc' hreads
  exact ⟨c', hc', hlives, hreads⟩

theorem run_lives (hc : s.bench.source = .clock c) (operations : List Operation) :
    ∃ c', (s.run operations).2.bench.source = .clock c' ∧ c.Lives (s.trace operations) c' ∧
      (s.run operations).1.flatMap (·.reads) = (s.trace operations).probes := by
  induction operations generalizing s c with
  | nil => exact ⟨c, hc, .nil c, rfl⟩
  | cons operation rest ih =>
    obtain ⟨c₁, hc₁, hlives, hreads⟩ := step_lives hc operation
    obtain ⟨c', hc', hlater, hreads'⟩ := ih hc₁
    refine ⟨c', hc', hlives.trans hlater, ?_⟩
    rw [trace, Trace.probes_append, ← hreads, ← hreads']
    rfl

/-- The view that an operation reads once, for a reading that is its answer. -/
def Operation.shown? : Operation → Option Probe
  | .readTimer => some .timer
  | .readCounter | .stamp => some .counter
  | _ => none

theorem step_shown (hc : s.bench.source = .clock c) {operation : Operation} {probe : Probe}
    (h : operation.shown? = some probe) :
    ∃ r, (s.step operation).1.answer = .ok (.word r) ∧ s.traceOf operation = [.read probe r] := by
  obtain ⟨⟨source, reads, records, memory⟩, stamps, profilers, tokens⟩ := s
  cases hc
  cases operation with
  | readTimer =>
    cases h
    exact ⟨c.readTimer.1, rfl, rfl⟩
  | readCounter =>
    cases h
    exact ⟨c.readCounter, rfl, rfl⟩
  | stamp =>
    cases h
    exact ⟨c.readCounter, rfl, rfl⟩
  | _ => cases h

end Lives

end Session

end Chronometry
