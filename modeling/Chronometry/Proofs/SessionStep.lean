import Chronometry.Session
import Chronometry.Proofs.Reading

/-! What each operation does to the profilers and the tokens of a session. -/
namespace Chronometry

namespace Profiler
variable {p : Profiler} {b : Bench} {r : UInt64}

theorem begin_of_some (name : String) (bytes : UInt64) (h : b.source.nextCounter = some r) :
    (p.begin name bytes : Trial _) b = (.ok (p.enter name bytes ⟨r⟩), b.afterCounter) :=
  Program.bind_of_ok _ (Trial.readCounter_of_some h)

theorem begin_of_none (name : String) (bytes : UInt64) (h : b.source.nextCounter = none) :
    (p.begin name bytes : Trial _) b = (.error .exhausted, b.afterMiss .counter) :=
  Program.bind_of_error _ (Trial.readCounter_of_none h)

/-- The bench after an end: a token without a place in the profiler leaves a record. -/
def afterEnd (p : Profiler) (t : Token) (b : Bench) : Bench :=
  if p.owns t then b.afterCounter
  else { b.afterCounter with records := b.records.push foreignToken }

theorem finish_of_some (t : Token) (h : b.source.nextCounter = some r) :
    (p.finish t : Trial _) b = (.ok (p.leave t ⟨r⟩), p.afterEnd t b) := by
  unfold finish afterEnd
  rw [Program.bind_of_ok _ (Trial.readCounter_of_some h)]
  cases p.owns t
  · rfl
  · rfl

theorem finish_of_none (t : Token) (h : b.source.nextCounter = none) :
    (p.finish t : Trial _) b = (.error .exhausted, b.afterMiss .counter) :=
  Program.bind_of_error _ (Trial.readCounter_of_none h)

end Profiler

namespace Session

namespace Step
variable {s : Session} {n : Nat} {p : Profiler} {r : UInt64}

theorem onBench_of_ok {α : Type} {x : Trial α} {a : α} {b : Bench} (h : x s.bench = (.ok a, b)) :
    onBench x s = (.ok a, { s with bench := b }) := by
  rw [onBench, Program.mk_apply, h]

theorem onBench_of_error {α : Type} {x : Trial α} {cause : Halt} {b : Bench}
    (h : x s.bench = (.error cause, b)) :
    onBench x s = (.error (.halted cause), { s with bench := b }) := by
  rw [onBench, Program.mk_apply, h]

theorem lookup_of_some {α : Type} {all : List α} {a : α} (h : all[n]? = some a) (s : Session) :
    lookup all n s = (.ok a, s) := by
  rw [lookup, h]
  rfl

theorem lookup_of_none {α : Type} {all : List α} (h : all[n]? = none) (s : Session) :
    lookup all n s = (.error (.unknown n), s) := by
  rw [lookup, h]
  rfl

theorem profiler_of_some (h : s.profilers[n]? = some p) : profiler n s = (.ok p, s) :=
  lookup_of_some h s

theorem profiler_of_none (h : s.profilers[n]? = none) : profiler n s = (.error (.unknown n), s) :=
  lookup_of_none h s

theorem setProfiler_apply (n : Nat) (p : Profiler) (s : Session) :
    setProfiler n p s = (.ok (), { s with profilers := s.profilers.set n p }) := rfl

theorem enter_of_some (name : String) (bytes : UInt64) (hp : s.profilers[n]? = some p)
    (hr : s.bench.source.nextCounter = some r) :
    enter n name bytes s = (.ok (p.enter name bytes ⟨r⟩).2,
      { s with
        profilers := s.profilers.set n (p.enter name bytes ⟨r⟩).1
        bench := s.bench.afterCounter }) := by
  unfold enter
  rw [Program.bind_of_ok _ (profiler_of_some hp), Program.bind_of_ok _ (setProfiler_apply _ _ _)]
  let s₁ : Session := { s with profilers := s.profilers.set n (p.declare name) }
  rw [Program.bind_of_ok _ (onBench_of_ok (s := s₁) (Profiler.begin_of_some name bytes hr))]
  dsimp only
  rw [Program.bind_of_ok _ (setProfiler_apply _ _ _), List.set_set]
  rfl

theorem enter_of_none (name : String) (bytes : UInt64) (hp : s.profilers[n]? = some p)
    (hr : s.bench.source.nextCounter = none) :
    enter n name bytes s = (.error (.halted .exhausted),
      { s with
        profilers := s.profilers.set n (p.declare name)
        bench := s.bench.afterMiss .counter }) := by
  unfold enter
  rw [Program.bind_of_ok _ (profiler_of_some hp), Program.bind_of_ok _ (setProfiler_apply _ _ _)]
  let s₁ : Session := { s with profilers := s.profilers.set n (p.declare name) }
  rw [Program.bind_of_error _ (onBench_of_error (s := s₁) (Profiler.begin_of_none name bytes hr))]

theorem enter_of_unknown (name : String) (bytes : UInt64) (hp : s.profilers[n]? = none) :
    enter n name bytes s = (.error (.unknown n), s) :=
  Program.bind_of_error _ (profiler_of_none hp)

theorem leave_of_some (t : Token) (hp : s.profilers[n]? = some p)
    (hr : s.bench.source.nextCounter = some r) :
    leave n t s = (.ok (p.leave t ⟨r⟩).2,
      { s with profilers := s.profilers.set n (p.leave t ⟨r⟩).1, bench := p.afterEnd t s.bench }) := by
  have hfinish := onBench_of_ok (Profiler.finish_of_some (p := p) t hr)
  unfold leave
  rw [Program.bind_of_ok _ (profiler_of_some hp), Program.bind_of_ok _ hfinish]
  rfl

theorem leave_of_none (t : Token) (hp : s.profilers[n]? = some p)
    (hr : s.bench.source.nextCounter = none) :
    leave n t s = (.error (.halted .exhausted), { s with bench := s.bench.afterMiss .counter }) := by
  unfold leave
  rw [Program.bind_of_ok _ (profiler_of_some hp),
    Program.bind_of_error _ (onBench_of_error (Profiler.finish_of_none t hr))]

theorem leave_of_unknown (t : Token) (hp : s.profilers[n]? = none) :
    leave n t s = (.error (.unknown n), s) :=
  Program.bind_of_error _ (profiler_of_none hp)

theorem takeToken_of_some {number : Nat} {t : Token} (h : s.tokens[number]? = some (some t)) :
    takeToken number s = (.ok t, { s with tokens := s.tokens.set number none }) := by
  change (lookup s.tokens number >>= _) s = _
  rw [Program.bind_of_ok _ (lookup_of_some h s)]
  rfl

theorem takeToken_of_used {number : Nat} (h : s.tokens[number]? = some none) :
    takeToken number s = (.error .tokenUsed, s) := by
  change (lookup s.tokens number >>= _) s = _
  rw [Program.bind_of_ok _ (lookup_of_some h s)]
  rfl

theorem takeToken_of_unknown {number : Nat} (h : s.tokens[number]? = none) :
    takeToken number s = (.error (.unknown number), s) := by
  change (lookup s.tokens number >>= _) s = _
  rw [Program.bind_of_error _ (lookup_of_none h s)]

/-- A computation that leaves profilers and tokens as they were. -/
def Frames {α : Type} (x : Step α) : Prop :=
  ∀ s, (x s).2.profilers = s.profilers ∧ (x s).2.tokens = s.tokens

/-- A computation that leaves a part of the session as it was. -/
def Keeps {α β : Type} (view : Session → β) (x : Step α) : Prop := ∀ s, view (x s).2 = view s

namespace Keeps
variable {α β γ : Type} {view : Session → γ}

theorem pure (a : α) : Keeps view (pure a : Step α) := fun _ => rfl

theorem throw (e : Error) : Keeps view (throw e : Step α) := fun _ => rfl

theorem bind {x : Step α} {f : α → Step β} (hx : Keeps view x) (hf : ∀ a, Keeps view (f a)) :
    Keeps view (x >>= f) := by
  intro s
  have h := hx s
  cases hxs : x s with
  | mk result s₁ =>
    rw [hxs] at h
    cases result with
    | error e => rw [Program.bind_of_error _ hxs]; exact h
    | ok a =>
      rw [Program.bind_of_ok _ hxs]
      exact (hf a s₁).trans h

theorem map {x : Step α} (f : α → β) (hx : Keeps view x) : Keeps view (f <$> x) :=
  hx.bind fun a => pure (f a)

theorem onBench (hbench : ∀ s b, view { s with bench := b } = view s) (x : Trial α) :
    Keeps view (onBench x) := by
  intro s
  cases hx : x s.bench with
  | mk result b =>
    cases result with
    | error e => rw [onBench_of_error hx]; exact hbench s b
    | ok a => rw [onBench_of_ok hx]; exact hbench s b

theorem lookup (all : List α) (number : Nat) : Keeps view (lookup all number) := by
  unfold Step.lookup
  cases all[number]? with
  | none => exact throw _
  | some a => exact pure a

theorem stamp (number : Nat) : Keeps view (stamp number) := fun s => lookup s.stamps number s

theorem profiler (number : Nat) : Keeps view (profiler number) := fun s => lookup s.profilers number s

end Keeps

end Step

/-- Whether an operation makes, begins or ends something of a profiler. -/
def Operation.edits : Operation → Bool
  | .newProfiler _ | .copyProfiler _ | .begin .. | .finish .. | .time .. => true
  | _ => false

/-- An operation that edits nothing leaves all but the bench and the stamps as it was. -/
theorem Step.keeps_perform {γ : Type} {view : Session → γ}
    (hbench : ∀ s b, view { s with bench := b } = view s) {operation : Operation}
    (hstamp : operation = .stamp → ∀ s stamps, view { s with stamps := stamps } = view s)
    (h : operation.edits = false) : Keeps view (perform operation) := by
  have onBench {α : Type} (x : Trial α) : Keeps view (Step.onBench x) := .onBench hbench x
  cases operation with
  | readTimer => exact (onBench _).map _
  | readCounter => exact (onBench _).map _
  | frequency => exact (onBench _).map _
  | reported => exact (onBench _).map _
  | advance ns => exact (onBench _).bind fun _ => .pure _
  | calibrate waitMs silent =>
    apply (onBench _).bind
    intro result
    cases result with
    | error cause => exact .throw _
    | ok result => exact (onBench _).bind fun _ => .pure _
  | measureTimer target => exact (onBench _).map _
  | measureBoth target => exact (onBench _).bind fun _ => .pure _
  | stamp =>
    exact (onBench _).bind fun _ => .bind (fun s => hstamp rfl s _) fun _ => .pure _
  | elapsed number => exact (Keeps.stamp _).bind fun _ => (onBench _).bind fun _ => .pure _
  | since number earlier => exact (Keeps.stamp _).bind fun _ => (Keeps.stamp _).bind fun _ => .pure _
  | sections number => exact (Keeps.profiler _).bind fun _ => .pure _
  | total number => exact (Keeps.profiler _).bind fun _ => .pure _
  | profilerFrequency number => exact (Keeps.profiler _).bind fun _ => .pure _
  | report number => exact (Keeps.profiler _).bind fun _ => .pure _
  | repetition tester bytes works =>
    apply (onBench _).bind
    intro result
    cases result with
    | error cause => exact .throw _
    | ok report => exact .pure _
  | newProfiler | copyProfiler | begin | finish | time => cases h

theorem Step.frames_perform {operation : Operation} (h : operation.edits = false) :
    Frames (perform operation) := by
  have hprofilers : Keeps profilers (perform operation) :=
    keeps_perform (fun _ _ => rfl) (fun _ _ _ => rfl) h
  have htokens : Keeps tokens (perform operation) :=
    keeps_perform (fun _ _ => rfl) (fun _ _ _ => rfl) h
  exact fun s => ⟨hprofilers s, htokens s⟩

namespace Step.Keeps

theorem enter (n : Nat) (name : String) (bytes : UInt64) : Keeps stamps (enter n name bytes) := by
  apply (profiler n).bind
  intro p
  refine .bind (fun _ => rfl) fun _ => (onBench (fun _ _ => rfl) _).bind fun begun => ?_
  exact .bind (fun _ => rfl) fun _ => pure _

theorem takeToken (number : Nat) : Keeps stamps (takeToken number) := by
  intro s
  refine Keeps.bind (lookup s.tokens number) (fun place => ?_) s
  cases place with
  | none => exact throw _
  | some t => exact .bind (fun _ => rfl) fun _ => pure _

theorem leave (n : Nat) (t : Token) : Keeps stamps (leave n t) := by
  apply (profiler n).bind
  intro p
  exact (onBench (fun _ _ => rfl) _).bind fun _ => .bind (fun _ => rfl) fun _ => pure _

end Step.Keeps

/-- Nothing but a stamp changes the stamps. -/
theorem Step.keeps_stamps {operation : Operation} (h : operation ≠ .stamp) :
    Keeps stamps (perform operation) := by
  cases operation with
  | newProfiler frequency => exact fun _ => rfl
  | copyProfiler n => exact (Keeps.profiler n).bind fun _ _ => rfl
  | begin n name bytes => exact (Keeps.enter n name bytes).bind fun _ _ => rfl
  | finish n number =>
    exact (Keeps.takeToken number).bind fun t => (Keeps.leave n t).bind fun _ => .pure _
  | time n name ns =>
    apply (Keeps.enter n name 0).bind
    intro t
    refine (Keeps.onBench (fun _ _ => rfl) _).bind fun _ => ?_
    exact ((Keeps.leave n t).map _).bind fun _ => .pure _
  | _ => exact keeps_perform (fun _ _ => rfl) (fun hstamp => absurd hstamp h) rfl

/-- The session in which an operation starts: the reads and records of earlier ones are gone. -/
def fresh (s : Session) : Session := { s with bench := .ofSource s.bench.source }

theorem run_append (s : Session) (operations later : List Operation) :
    (s.run (operations ++ later)).2 = ((s.run operations).2.run later).2 := by
  induction operations generalizing s with
  | nil => rfl
  | cons operation rest ih => exact ih (s.step operation).2

/-- The profilers and the tokens after an operation. -/
def edited (s : Session) (operation : Operation) : List Profiler × List (Option Token) :=
  ((s.step operation).2.profilers, (s.step operation).2.tokens)

section Edits
variable {s s' : Session} {operation : Operation} {result : Except Error Answer}
variable {n number : Nat} {p : Profiler} {r r' : UInt64} {t : Token}

theorem step_of_perform (s : Session) (operation : Operation)
    (h : Step.perform operation s.fresh = (result, s')) :
    (s.step operation).1.answer = result ∧ s.edited operation = (s'.profilers, s'.tokens) := by
  unfold fresh at h
  rw [edited, step, h]
  exact ⟨rfl, rfl⟩

theorem edited_of_frames (h : operation.edits = false) :
    s.edited operation = (s.profilers, s.tokens) := by
  obtain ⟨hp, ht⟩ := Step.frames_perform h s.fresh
  exact Prod.ext hp ht

theorem edited_newProfiler (frequency : UInt64) :
    s.edited (.newProfiler frequency) = (s.profilers ++ [.new frequency], s.tokens) := rfl

theorem edited_copyProfiler (n : Nat) :
    s.edited (.copyProfiler n) = (s.profilers ++ s.profilers[n]?.toList, s.tokens) := by
  cases hp : s.profilers[n]? with
  | none =>
    have h : Step.perform (.copyProfiler n) s.fresh = (.error (.unknown n), s.fresh) :=
      Program.bind_of_error _ (Step.profiler_of_none hp)
    rw [(step_of_perform s _ h).2, Option.toList_none, List.append_nil]
    rfl
  | some p =>
    have h : Step.perform (.copyProfiler n) s.fresh = (.ok (.number s.profilers.length),
        { s.fresh with profilers := s.profilers ++ [p] }) := by
      change (Step.profiler n >>= _) s.fresh = _
      rw [Program.bind_of_ok _ (Step.profiler_of_some (s := s.fresh) hp)]
      rfl
    exact (step_of_perform s _ h).2

theorem edited_begin_of_unknown (name : String) (bytes : UInt64) (hp : s.profilers[n]? = none) :
    s.edited (.begin n name bytes) = (s.profilers, s.tokens) := by
  have h : Step.perform (.begin n name bytes) s.fresh = (.error (.unknown n), s.fresh) :=
    Program.bind_of_error _ (Step.enter_of_unknown name bytes hp)
  exact (step_of_perform s _ h).2

theorem edited_begin_of_none (name : String) (bytes : UInt64) (hp : s.profilers[n]? = some p)
    (hr : s.bench.source.nextCounter = none) :
    s.edited (.begin n name bytes) = (s.profilers.set n (p.declare name), s.tokens) := by
  have h := Program.bind_of_error (fun t => Answer.number <$> Step.addToken t)
    (Step.enter_of_none (s := s.fresh) name bytes hp hr)
  exact (step_of_perform s (.begin n name bytes) h).2

theorem step_begin_of_some (name : String) (bytes : UInt64) (hp : s.profilers[n]? = some p)
    (hr : s.bench.source.nextCounter = some r) :
    (s.step (.begin n name bytes)).1.answer = .ok (.number s.tokens.length) ∧
      s.edited (.begin n name bytes) = (s.profilers.set n (p.enter name bytes ⟨r⟩).1,
        s.tokens ++ [some (p.enter name bytes ⟨r⟩).2]) := by
  have h := Program.bind_of_ok (fun t => Answer.number <$> Step.addToken t)
    (Step.enter_of_some (s := s.fresh) name bytes hp hr)
  exact step_of_perform s (.begin n name bytes) h

theorem edited_begin_of_some (name : String) (bytes : UInt64) (hp : s.profilers[n]? = some p)
    (hr : s.bench.source.nextCounter = some r) :
    s.edited (.begin n name bytes) = (s.profilers.set n (p.enter name bytes ⟨r⟩).1,
      s.tokens ++ [some (p.enter name bytes ⟨r⟩).2]) :=
  (step_begin_of_some name bytes hp hr).2

theorem perform_finish_of_some (ht : s.tokens[number]? = some (some t))
    (hp : s.profilers[n]? = some p) (hr : s.bench.source.nextCounter = some r) :
    Step.perform (.finish n number) s.fresh = (.ok (.word (p.leave t ⟨r⟩).2.count),
      { s.fresh with
        profilers := s.profilers.set n (p.leave t ⟨r⟩).1
        tokens := s.tokens.set number none
        bench := p.afterEnd t (.ofSource s.bench.source) }) := by
  let s₁ : Session := { s.fresh with tokens := s.tokens.set number none }
  refine (Program.bind_of_ok _ (Step.takeToken_of_some (s := s.fresh) ht)).trans ?_
  exact Program.bind_of_ok _ (Step.leave_of_some (s := s₁) t hp hr)

theorem step_finish_of_some (ht : s.tokens[number]? = some (some t)) (hp : s.profilers[n]? = some p)
    (hr : s.bench.source.nextCounter = some r) :
    (s.step (.finish n number)).1.answer = .ok (.word (p.leave t ⟨r⟩).2.count) ∧
      s.edited (.finish n number) =
        (s.profilers.set n (p.leave t ⟨r⟩).1, s.tokens.set number none) :=
  step_of_perform s _ (perform_finish_of_some ht hp hr)

theorem step_finish_of_unknown (ht : s.tokens[number]? = none) :
    (s.step (.finish n number)).1.answer = .error (.unknown number) ∧
      s.edited (.finish n number) = (s.profilers, s.tokens) := by
  have hrun := step_of_perform s (.finish n number)
    (Program.bind_of_error _ (Step.takeToken_of_unknown (s := s.fresh) ht))
  exact hrun

theorem step_finish_of_used (ht : s.tokens[number]? = some none) :
    (s.step (.finish n number)).1.answer = .error .tokenUsed ∧
      s.edited (.finish n number) = (s.profilers, s.tokens) := by
  have hrun := step_of_perform s (.finish n number)
    (Program.bind_of_error _ (Step.takeToken_of_used (s := s.fresh) ht))
  exact hrun

/-- An end that fails uses up its token at most. -/
theorem step_finish_of_failure (h : ¬∃ t p r, s.tokens[number]? = some (some t) ∧
      s.profilers[n]? = some p ∧ s.bench.source.nextCounter = some r) :
    (∃ e, (s.step (.finish n number)).1.answer = .error e) ∧
      (s.edited (.finish n number) = (s.profilers, s.tokens) ∨
        s.edited (.finish n number) = (s.profilers, s.tokens.set number none)) := by
  cases ht : s.tokens[number]? with
  | none =>
    have hrun := step_finish_of_unknown (n := n) ht
    exact ⟨⟨_, hrun.1⟩, .inl hrun.2⟩
  | some place =>
    cases place with
    | none =>
      have hrun := step_finish_of_used (n := n) ht
      exact ⟨⟨_, hrun.1⟩, .inl hrun.2⟩
    | some t =>
      let s₁ : Session := { s.fresh with tokens := s.tokens.set number none }
      have hleave : ∃ e b, Step.leave n t s₁ = (.error e, { s₁ with bench := b }) := by
        cases hp : s.profilers[n]? with
        | none => exact ⟨_, _, Step.leave_of_unknown (s := s₁) t hp⟩
        | some p =>
          cases hr : s.bench.source.nextCounter with
          | none => exact ⟨_, _, Step.leave_of_none (s := s₁) t hp hr⟩
          | some r => exact absurd ⟨t, p, r, ht, hp, hr⟩ h
      obtain ⟨e, b, hleave⟩ := hleave
      have hrun : Step.perform (.finish n number) s.fresh = (.error e, { s₁ with bench := b }) := by
        refine (Program.bind_of_ok _ (Step.takeToken_of_some (s := s.fresh) ht)).trans ?_
        exact Program.bind_of_error _ hleave
      have hstep := step_of_perform s _ hrun
      exact ⟨⟨_, hstep.1⟩, .inr hstep.2⟩

theorem edited_time_of_unknown (name : String) (ns : UInt64) (hp : s.profilers[n]? = none) :
    s.edited (.time n name ns) = (s.profilers, s.tokens) := by
  have h : Step.perform (.time n name ns) s.fresh = (.error (.unknown n), s.fresh) :=
    Program.bind_of_error _ (Step.enter_of_unknown name 0 hp)
  exact (step_of_perform s _ h).2

theorem edited_time_of_none (name : String) (ns : UInt64) (hp : s.profilers[n]? = some p)
    (hr : s.bench.source.nextCounter = none) :
    s.edited (.time n name ns) = (s.profilers.set n (p.declare name), s.tokens) := by
  have h : Step.perform (.time n name ns) s.fresh = (.error (.halted .exhausted), { s.fresh with
      profilers := s.profilers.set n (p.declare name)
      bench := s.fresh.bench.afterMiss .counter }) :=
    Program.bind_of_error _ (Step.enter_of_none name 0 hp hr)
  exact (step_of_perform s _ h).2

/-- A timed section that began, before it ends. -/
def timing (s : Session) (n : Nat) (name : String) (ns : UInt64) (p : Profiler) (r : UInt64) : Session :=
  { s.fresh with
    profilers := s.profilers.set n (p.enter name 0 ⟨r⟩).1
    bench := { s.fresh.bench.afterCounter with source := s.bench.source.afterCounter.advance ns } }

theorem perform_time_of_some (name : String) (ns : UInt64) (hp : s.profilers[n]? = some p)
    (hr : s.bench.source.nextCounter = some r) :
    Step.perform (.time n name ns) s.fresh =
        (discard (Step.leave n (p.enter name 0 ⟨r⟩).2) >>= fun _ => pure (.word ns))
          (s.timing n name ns p r) ∧
      (s.timing n name ns p r).profilers[n]? = some (p.enter name 0 ⟨r⟩).1 := by
  obtain ⟨hn, -⟩ := List.getElem?_eq_some_iff.1 hp
  refine ⟨?_, List.getElem?_set_self hn⟩
  refine (Program.bind_of_ok _ (Step.enter_of_some (s := s.fresh) name 0 hp hr)).trans ?_
  exact Program.bind_of_ok _ (Step.onBench_of_ok rfl)

theorem step_time_of_some (name : String) (ns : UInt64) (hp : s.profilers[n]? = some p)
    (hr : s.bench.source.nextCounter = some r)
    (hr' : (s.bench.source.afterCounter.advance ns).nextCounter = some r') :
    (s.step (.time n name ns)).1.answer = .ok (.word ns) ∧
      s.edited (.time n name ns) =
        let (q, t) := p.enter name 0 ⟨r⟩
        (s.profilers.set n (q.leave t ⟨r'⟩).1, s.tokens) := by
  obtain ⟨hrun, hq⟩ := perform_time_of_some name ns hp hr
  have hleave := Step.leave_of_some (p.enter name 0 ⟨r⟩).2 hq hr'
  have hdiscard : discard (Step.leave n _) (s.timing n name ns p r) = _ :=
    Program.map_of_ok (fun _ => ()) hleave
  obtain ⟨hanswer, hedited⟩ := step_of_perform s _ (hrun.trans (Program.bind_of_ok _ hdiscard))
  refine ⟨hanswer, hedited.trans ?_⟩
  change ((s.profilers.set n _).set n _, s.tokens) = _
  rw [List.set_set]

/-- A timed section that began: it ends if the counter can be read again after the clock has moved. -/
theorem edited_time_of_some (name : String) (ns : UInt64) (hp : s.profilers[n]? = some p)
    (hr : s.bench.source.nextCounter = some r) :
    s.edited (.time n name ns) =
      let (q, t) := p.enter name 0 ⟨r⟩
      match (s.bench.source.afterCounter.advance ns).nextCounter with
      | none => (s.profilers.set n q, s.tokens)
      | some r' => (s.profilers.set n (q.leave t ⟨r'⟩).1, s.tokens) := by
  cases hr' : (s.bench.source.afterCounter.advance ns).nextCounter with
  | none =>
    obtain ⟨hrun, hq⟩ := perform_time_of_some name ns hp hr
    have hleave := Step.leave_of_none (p.enter name 0 ⟨r⟩).2 hq hr'
    have hdiscard : discard (Step.leave n _) (s.timing n name ns p r) = _ :=
      Program.map_of_error (fun _ => ()) hleave
    exact (step_of_perform s _ (hrun.trans (Program.bind_of_error _ hdiscard))).2
  | some r' => exact (step_time_of_some name ns hp hr hr').2

/-- The profiler whose sections an operation begins or ends. -/
def Operation.target? : Operation → Option Nat
  | .begin n _ _ | .finish n _ | .time n _ _ => some n
  | _ => none

/-- What an operation does to a profiler that it is not about, and to the tokens: the profiler stays as
it is, and at most one token is made, or used up by its end. -/
theorem edited_frame (s : Session) (operation : Operation) :
    (∀ n < s.profilers.length, operation.target? ≠ some n →
      (s.edited operation).1[n]? = s.profilers[n]?) ∧
    ((s.edited operation).2 = s.tokens ∨ (∃ t, (s.edited operation).2 = s.tokens ++ [some t]) ∨
      ∃ n number, operation = .finish n number ∧
        (s.edited operation).2 = s.tokens.set number none) := by
  have hset : ∀ (m : Nat) (p : Profiler), ∀ n < s.profilers.length, some m ≠ some n →
      (s.profilers.set m p)[n]? = s.profilers[n]? := fun m p n _ hne =>
    List.getElem?_set_ne fun h => hne (congrArg some h)
  cases operation with
  | newProfiler frequency =>
    rw [edited_newProfiler]
    exact ⟨fun n hn _ => List.getElem?_append_left hn, .inl rfl⟩
  | copyProfiler m =>
    rw [edited_copyProfiler]
    exact ⟨fun n hn _ => List.getElem?_append_left hn, .inl rfl⟩
  | begin m name bytes =>
    cases hp : s.profilers[m]? with
    | none =>
      rw [edited_begin_of_unknown name bytes hp]
      exact ⟨fun _ _ _ => rfl, .inl rfl⟩
    | some p =>
      cases hr : s.bench.source.nextCounter with
      | none =>
        rw [edited_begin_of_none name bytes hp hr]
        exact ⟨hset m _, .inl rfl⟩
      | some r =>
        rw [edited_begin_of_some name bytes hp hr]
        exact ⟨hset m _, .inr (.inl ⟨_, rfl⟩)⟩
  | finish m number =>
    by_cases hok : ∃ t p r, s.tokens[number]? = some (some t) ∧ s.profilers[m]? = some p ∧
        s.bench.source.nextCounter = some r
    · obtain ⟨t, p, r, ht, hp, hr⟩ := hok
      rw [(step_finish_of_some ht hp hr).2]
      exact ⟨hset m _, .inr (.inr ⟨m, number, rfl, rfl⟩)⟩
    · rcases (step_finish_of_failure hok).2 with hedited | hedited
      · rw [hedited]
        exact ⟨fun _ _ _ => rfl, .inl rfl⟩
      · rw [hedited]
        exact ⟨fun _ _ _ => rfl, .inr (.inr ⟨m, number, rfl, rfl⟩)⟩
  | time m name ns =>
    cases hp : s.profilers[m]? with
    | none =>
      rw [edited_time_of_unknown name ns hp]
      exact ⟨fun _ _ _ => rfl, .inl rfl⟩
    | some p =>
      cases hr : s.bench.source.nextCounter with
      | none =>
        rw [edited_time_of_none name ns hp hr]
        exact ⟨hset m _, .inl rfl⟩
      | some r =>
        rw [edited_time_of_some name ns hp hr]
        dsimp only
        split
        · exact ⟨hset m _, .inl rfl⟩
        · exact ⟨hset m _, .inl rfl⟩
  | _ =>
    rw [edited_of_frames rfl]
    exact ⟨fun _ _ _ => rfl, .inl rfl⟩

/-- A token stays as it is until its end. -/
theorem getElem?_tokens_step {number : Nat} (hlt : number < s.tokens.length)
    (hne : ∀ n, operation ≠ .finish n number) :
    (s.step operation).2.tokens[number]? = s.tokens[number]? := by
  change (s.edited operation).2[number]? = _
  rcases (s.edited_frame operation).2 with htokens | ⟨t, htokens⟩ | ⟨n, used, hop, htokens⟩
  · rw [htokens]
  · rw [htokens, List.getElem?_append_left hlt]
  · have hused : used ≠ number := fun h => hne n (h ▸ hop)
    rw [htokens, List.getElem?_set_ne hused]

theorem getElem?_tokens_run {number : Nat} {operations : List Operation} {token : Option Token}
    (ht : s.tokens[number]? = some token) (hne : ∀ n, .finish n number ∉ operations) :
    (s.run operations).2.tokens[number]? = some token := by
  induction operations generalizing s with
  | nil => exact ht
  | cons operation rest ih =>
    obtain ⟨hlt, -⟩ := List.getElem?_eq_some_iff.1 ht
    have hstep := getElem?_tokens_step hlt fun n hop => hne n (hop ▸ List.mem_cons_self)
    exact ih (hstep.trans ht) fun n hmem => hne n (List.mem_cons_of_mem _ hmem)

end Edits

section Stamps
variable {s : Session} {r : UInt64}

theorem step_stamp_of_some (hr : s.bench.source.nextCounter = some r) :
    (s.step .stamp).2.stamps = s.stamps ++ [⟨r⟩] := by
  have hread := Step.onBench_of_ok (Trial.readCounter_of_some (b := s.fresh.bench) hr)
  change (Step.perform .stamp s.fresh).2.stamps = _
  rw [Step.perform, Program.bind_of_ok _ hread]
  rfl

theorem step_stamp_of_none (hr : s.bench.source.nextCounter = none) :
    (s.step .stamp).2.stamps = s.stamps := by
  have hread := Step.onBench_of_error (Trial.readCounter_of_none (b := s.fresh.bench) hr)
  change (Step.perform .stamp s.fresh).2.stamps = _
  rw [Step.perform, Program.bind_of_error _ hread]
  rfl

theorem step_elapsed_of_some {n : Nat} {earlier : Stamp} (hn : s.stamps[n]? = some earlier)
    (hr : s.bench.source.nextCounter = some r) :
    (s.step (.elapsed n)).1.answer = .ok (.word (Stamp.since ⟨r⟩ earlier).count) := by
  have hread := Step.onBench_of_ok (Trial.readCounter_of_some (b := s.fresh.bench) hr)
  change ((Step.lookup s.stamps n >>= _) s.fresh).1 = _
  rw [Program.bind_of_ok _ (Step.lookup_of_some hn s.fresh), Program.bind_of_ok _ hread]
  rfl

/-- Stamps stay where they are. -/
theorem stamps_step (s : Session) (operation : Operation) :
    s.stamps <+: (s.step operation).2.stamps := by
  by_cases h : operation = .stamp
  · subst h
    cases hr : s.bench.source.nextCounter with
    | none => exact ⟨[], by rw [List.append_nil, step_stamp_of_none hr]⟩
    | some r => exact ⟨[⟨r⟩], (step_stamp_of_some hr).symm⟩
  · have hkept : (s.step operation).2.stamps = s.stamps := Step.keeps_stamps h s.fresh
    exact ⟨[], by rw [List.append_nil, hkept]⟩

theorem stamps_run (s : Session) (operations : List Operation) :
    s.stamps <+: (s.run operations).2.stamps := by
  induction operations generalizing s with
  | nil => exact List.prefix_rfl
  | cons operation rest ih => exact (s.stamps_step operation).trans (ih _)

end Stamps

end Session

end Chronometry
