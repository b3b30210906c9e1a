import Chronometry.Calibration
import Chronometry.Profile
import Chronometry.Proofs.Reading
import Chronometry.Repetition

/-! Measurements that write down each reading they get and each advance of the clock they make. They are
the same programs on a bench that keeps a trace, so the trace of a measurement tells what the measurement
saw. -/
namespace Chronometry

/-- What can happen to a pair of clocks: a read with the reading it got, or an advance. -/
inductive Act where
  | read (probe : Probe) (reading : UInt64)
  | advance (ns : UInt64)
deriving DecidableEq

def Act.probe? : Act → Option Probe
  | .read probe _ => some probe
  | .advance _ => none

def Act.reading? (probe : Probe) : Act → Option UInt64
  | .read probe' r => if probe' = probe then some r else none
  | .advance _ => none

abbrev Trace := List Act

namespace Trace

/-- The reads of a trace, without their readings. -/
def probes (acts : Trace) : List Probe := acts.filterMap Act.probe?

/-- The readings got from the timer or from the counter. -/
def readings (probe : Probe) (acts : Trace) : List UInt64 := acts.filterMap (Act.reading? probe)

theorem probes_append (acts later : Trace) : probes (acts ++ later) = acts.probes ++ later.probes :=
  List.filterMap_append

end Trace

namespace Clock

def look (c : Clock) : Probe → UInt64 × Clock
  | .timer => c.readTimer
  | .counter => (c.readCounter, c)

/-- A clock goes through the acts of a trace, and each reading in it is the one that the clock showed. -/
inductive Lives : Clock → Trace → Clock → Prop where
  | nil (c : Clock) : Lives c [] c
  | read {c c' : Clock} {acts : Trace} (probe : Probe) :
      Lives (c.look probe).2 acts c' → Lives c (.read probe (c.look probe).1 :: acts) c'
  | advance {c c' : Clock} {acts : Trace} (ns : UInt64) :
      Lives (c.advance ns) acts c' → Lives c (.advance ns :: acts) c'

theorem Lives.trans {c c₁ c₂ : Clock} {acts later : Trace} (h : c.Lives acts c₁)
    (hlater : c₁.Lives later c₂) : c.Lives (acts ++ later) c₂ := by
  induction h with
  | nil => exact hlater
  | read probe _ ih => exact .read probe (ih hlater)
  | advance ns _ ih => exact .advance ns (ih hlater)

theorem Lives.of_append {c c₂ : Clock} {acts later : Trace} (h : c.Lives (acts ++ later) c₂) :
    ∃ c₁, c.Lives acts c₁ ∧ c₁.Lives later c₂ := by
  induction acts generalizing c with
  | nil => exact ⟨c, .nil c, h⟩
  | cons act acts ih =>
    cases h with
    | read probe hrest =>
      obtain ⟨c₁, hacts, hlater⟩ := ih hrest
      exact ⟨c₁, .read probe hacts, hlater⟩
    | advance ns hrest =>
      obtain ⟨c₁, hacts, hlater⟩ := ih hrest
      exact ⟨c₁, .advance ns hacts, hlater⟩

/-- Only the time of a clock changes. -/
theorem Lives.rate_eq {c c' : Clock} {acts : Trace} (h : c.Lives acts c') : c'.rate = c.rate := by
  induction h with
  | nil => rfl
  | read probe _ ih => cases probe <;> exact ih
  | advance ns _ ih => exact ih

end Clock

/-- On a bench with a clock, the clock goes through the acts, and the bench counts their reads. -/
def Bench.Lives (b : Bench) (acts : Trace) (b' : Bench) : Prop :=
  ∀ c, b.source = .clock c → ∃ c', b'.source = .clock c' ∧ c.Lives acts c' ∧
    b'.reads.toList = b.reads.toList ++ acts.probes

namespace Bench.Lives
variable {b b₁ b₂ : Bench} {acts later : Trace}

theorem of_eq (hsource : b₁.source = b.source) (hreads : b₁.reads = b.reads) : b.Lives [] b₁ := by
  intro c hc
  have hsame : b₁.reads.toList = b.reads.toList ++ Trace.probes [] := by simp [hreads, Trace.probes]
  exact ⟨c, hsource.trans hc, .nil c, hsame⟩

theorem trans (h : b.Lives acts b₁) (hlater : b₁.Lives later b₂) : b.Lives (acts ++ later) b₂ := by
  intro c hc
  obtain ⟨c₁, hc₁, hacts, hreads⟩ := h c hc
  obtain ⟨c₂, hc₂, hlater, hreads'⟩ := hlater c₁ hc₁
  refine ⟨c₂, hc₂, hacts.trans hlater, ?_⟩
  rw [hreads', hreads, Trace.probes_append, List.append_assoc]

end Bench.Lives

/-- A computation on a bench that also gives its trace. -/
def Traced (α : Type) : Type := Bench → (Except Halt α × Bench) × Trace

namespace Traced

instance : Monad Traced where
  pure a := fun b => ((.ok a, b), [])
  bind x f := fun b =>
    match x b with
    | ((.ok a, b), acts) => ((f a b).1, acts ++ (f a b).2)
    | ((.error cause, b), acts) => ((.error cause, b), acts)

section Bind
variable {α β : Type} {x : Traced α} {b b₁ : Bench} {acts : Trace}

theorem bind_of_ok {a : α} (f : α → Traced β) (h : x b = ((.ok a, b₁), acts)) :
    (x >>= f) b = ((f a b₁).1, acts ++ (f a b₁).2) := by
  change (match x b with | ((.ok a, b), acts) => _ | ((.error cause, b), acts) => _) = _
  rw [h]

theorem bind_of_error {cause : Halt} (f : α → Traced β) (h : x b = ((.error cause, b₁), acts)) :
    (x >>= f) b = ((.error cause, b₁), acts) := by
  change (match x b with | ((.ok a, b), acts) => _ | ((.error cause, b), acts) => _) = _
  rw [h]

theorem trace_map (f : α → β) (x : Traced α) (b : Bench) : ((f <$> x) b).2 = (x b).2 := by
  change ((x >>= fun a => pure (f a)) b).2 = _
  rcases hx : x b with ⟨⟨result, b₁⟩, acts⟩
  cases result with
  | error cause => rw [bind_of_error _ hx]
  | ok a =>
    rw [bind_of_ok _ hx]
    exact List.append_nil acts

end Bind

/-- A trial that writes down its result; one that stops early writes nothing. -/
def note {α : Type} (trial : Trial α) (acts : α → Trace) : Traced α := fun b =>
  match trial b with
  | (.ok a, b) => ((.ok a, b), acts a)
  | (.error cause, b) => ((.error cause, b), [])

/-- A trial that leaves no trace. -/
def silent {α : Type} (trial : Trial α) : Traced α := note trial fun _ => []

instance : Clocks Traced where
  frequency := silent Clocks.frequency
  readTimer := note Clocks.readTimer fun r => [.read .timer r]
  readCounter := note Clocks.readCounter fun r => [.read .counter r]
  reported := silent Clocks.reported
  patience := silent Clocks.patience
  giveUp := silent Clocks.giveUp

instance : Logger Traced where
  record r := silent (Logger.record r)

def advance (ns : UInt64) : Traced Unit := note (Trial.advance ns) fun _ => [.advance ns]

instance : Worker Traced where
  perform w := advance w.nanoseconds
  memory := silent Worker.memory
  uptime := silent Worker.uptime
  instant := silent Worker.instant

section Reads
variable {b : Bench} {r : UInt64}

theorem readTimer_of_some (h : b.source.timerAt 0 = some r) :
    (Clocks.readTimer : Traced UInt64) b = ((.ok r, b.afterTimers 1), [.read .timer r]) := by
  have hread := Trial.readTimer_eq_ok_iff.2 ⟨h, rfl⟩
  change Traced.note (Clocks.readTimer : Trial UInt64) _ b = _
  rw [Traced.note, hread]

theorem readCounter_of_some (h : b.source.nextCounter = some r) :
    (Clocks.readCounter : Traced UInt64) b = ((.ok r, b.afterCounter), [.read .counter r]) := by
  change Traced.note (Clocks.readCounter : Trial UInt64) _ b = _
  rw [Traced.note, Trial.readCounter_of_some h]

end Reads

end Traced

/-- The first computation does what the second one does, and its trace is what happens. -/
def Traces {α : Type} (x : Traced α) (y : Trial α) : Prop :=
  ∀ b, (x b).1 = y b ∧ b.Lives (x b).2 (y b).2

namespace Traces
variable {α β : Type} {x : Traced α} {y : Trial α}

theorem pure (a : α) : Traces (Pure.pure a) (Pure.pure a) := fun _ => ⟨rfl, .of_eq rfl rfl⟩

theorem bind {f : α → Traced β} {g : α → Trial β} (h : Traces x y)
    (hf : ∀ a, Traces (f a) (g a)) : Traces (x >>= f) (y >>= g) := by
  intro b
  obtain ⟨hxy, hlives⟩ := h b
  rcases hx : x b with ⟨⟨result, b₁⟩, acts⟩
  rw [hx] at hxy hlives
  rw [← hxy] at hlives
  cases result with
  | error cause =>
    rw [Traced.bind_of_error f hx, Program.bind_of_error g hxy.symm]
    exact ⟨rfl, hlives⟩
  | ok a =>
    rw [Traced.bind_of_ok f hx, Program.bind_of_ok g hxy.symm]
    exact ⟨(hf a b₁).1, hlives.trans (hf a b₁).2⟩

theorem map (f : α → β) (h : Traces x y) : Traces (f <$> x) (f <$> y) := by
  have hmap : f <$> y = y >>= fun a => Pure.pure (f a) := (bind_pure_comp f y).symm
  rw [hmap]
  exact h.bind fun a => pure (f a)

theorem ite {P : Prop} [Decidable P] {x₁ x₂ : Traced α} {y₁ y₂ : Trial α} (h₁ : Traces x₁ y₁)
    (h₂ : Traces x₂ y₂) : Traces (if P then x₁ else x₂) (if P then y₁ else y₂) := by
  split
  · exact h₁
  · exact h₂

theorem silent (hsource : ∀ b, (y b).2.source = b.source) (hreads : ∀ b, (y b).2.reads = b.reads) :
    Traces (Traced.silent y) y := by
  intro b
  have hlives : b.Lives [] (y b).2 := .of_eq (hsource b) (hreads b)
  unfold Traced.silent Traced.note
  rcases hy : y b with ⟨result, b₁⟩
  rw [hy] at hlives
  cases result
  · exact ⟨rfl, hlives⟩
  · exact ⟨rfl, hlives⟩

/-- A read of a clock gets a reading. -/
theorem read {probe : Probe} {next : Source → Option (UInt64 × Source)}
    (hnext : ∀ c, next (.clock c) = some ((c.look probe).1, .clock (c.look probe).2)) :
    Traces (Traced.note (Trial.read probe next) fun r => [.read probe r]) (Trial.read probe next) := by
  intro b
  unfold Traced.note Trial.read
  rw [Program.mk_apply]
  dsimp only
  cases hb : b.source with
  | script script =>
    have hnone : ∀ acts b₁, b.Lives acts b₁ := fun _ _ c hc => by cases hb.symm.trans hc
    cases next (.script script)
    · exact ⟨rfl, hnone _ _⟩
    · exact ⟨rfl, hnone _ _⟩
  | clock c =>
    rw [hnext c]
    refine ⟨rfl, fun d hd => ?_⟩
    cases hb.symm.trans hd
    refine ⟨_, rfl, .read probe (.nil _), ?_⟩
    simp [Trace.probes, Act.probe?]

theorem readTimer : Traces (Clocks.readTimer : Traced UInt64) Clocks.readTimer := read fun _ => rfl

theorem readCounter : Traces (Clocks.readCounter : Traced UInt64) Clocks.readCounter :=
  read fun _ => rfl

theorem frequency : Traces (Clocks.frequency : Traced UInt64) Clocks.frequency :=
  silent (fun _ => rfl) fun _ => rfl

theorem patience : Traces (Clocks.patience : Traced Nat) Clocks.patience :=
  silent (fun _ => rfl) fun _ => rfl

theorem giveUp : Traces (Clocks.giveUp : Traced α) Clocks.giveUp :=
  silent (fun _ => rfl) fun _ => rfl

theorem record (r : Log.Record) : Traces (Logger.record r : Traced Unit) (Logger.record r) :=
  silent (fun _ => rfl) fun _ => rfl

theorem instant : Traces (Worker.instant : Traced Duration) Worker.instant := by
  have hbench : ∀ b, ((Worker.instant : Trial Duration) b).2 = b := by
    rintro ⟨_ | _, reads, records, memory⟩
    · rfl
    · rfl
  exact silent (fun b => congrArg Bench.source (hbench b)) fun b => congrArg Bench.reads (hbench b)

theorem advance (ns : UInt64) : Traces (Traced.advance ns) (Trial.advance ns) := by
  intro b
  refine ⟨rfl, fun c hc => ⟨c.advance ns, ?_, .advance ns (.nil _), (List.append_nil _).symm⟩⟩
  change b.source.advance ns = _
  rw [hc, Source.advance]

end Traces

section Programs

theorem traces_spin (start target : UInt64) (n : Nat) (last : UInt64) :
    Traces (spin start target n last) (spin start target n last) := by
  induction n generalizing last with
  | zero => exact .giveUp
  | succ n ih => exact .ite (.pure last) (Traces.readTimer.bind ih)

theorem traces_spinUntil (start target : UInt64) :
    Traces (spinUntil start target) (spinUntil start target) :=
  Traces.patience.bind fun n => traces_spin start target n start

theorem traces_measureTimer (target : UInt64) :
    Traces (measureTimer target) (measureTimer target) := by
  apply Traces.readTimer.bind
  intro start
  apply (traces_spinUntil start target).bind
  intro last
  exact Traces.frequency.bind fun _ => .pure _

theorem traces_measureBoth (target : UInt64) :
    Traces (measureBoth target) (measureBoth target) := by
  apply Traces.readTimer.bind
  intro start
  apply Traces.readCounter.bind
  intro first
  apply (traces_spinUntil start target).bind
  intro last
  apply Traces.readCounter.bind
  intro final
  exact Traces.frequency.bind fun _ => .pure _

theorem traces_calibrate (waitMs : UInt64) : Traces (calibrate waitMs) (calibrate waitMs) := by
  refine .ite (.pure _) (.map _ ?_)
  apply Traces.frequency.bind
  intro frequency
  apply Traces.readTimer.bind
  intro start
  apply Traces.readCounter.bind
  intro first
  apply (traces_spinUntil start (waitTicks frequency waitMs)).bind
  intro last
  apply Traces.readCounter.bind
  intro final
  exact (Traces.record _).bind fun _ => .pure _

namespace Profiler

theorem traces_begin (p : Profiler) (name : String) (bytes : UInt64) :
    Traces (p.begin name bytes) (p.begin name bytes) :=
  Traces.readCounter.bind fun _ => .pure _

theorem traces_finish (p : Profiler) (t : Token) : Traces (p.finish t) (p.finish t) := by
  apply Traces.readCounter.bind
  intro stop
  exact .ite ((Traces.record _).bind fun _ => .pure _) (.pure _)

theorem traces_time (p : Profiler) (name : String) (bytes : UInt64) {x : Traced Unit}
    {y : Trial Unit} (h : Traces x y) : Traces (p.time name bytes x) (p.time name bytes y) := by
  apply (p.traces_begin name bytes).bind
  intro begun
  apply h.bind
  intro _
  exact (begun.1.traces_finish begun.2).bind fun _ => .pure _

end Profiler

namespace Repetition
variable {x : Nat → Traced Unit} {y : Nat → Trial Unit}

theorem traces_loop (h : ∀ run, Traces (x run) (y run)) (start target : UInt64) (n run : Nat)
    (stream : Statistics.Samples) :
    Traces (loop x start target n run stream) (loop y start target n run stream) := by
  induction n generalizing run stream with
  | zero => exact .giveUp
  | succ n ih =>
    apply Traces.readCounter.bind
    intro begun
    apply (h run).bind
    intro _
    apply Traces.readCounter.bind
    intro ended
    dsimp only
    rcases (Statistics.Stream.update (Stamp.since ⟨ended⟩ ⟨begun⟩).count.toFloat).run stream with
      ⟨e | _, stream⟩
    · exact .pure _
    · exact Traces.readTimer.bind fun now => .ite (.pure _) (ih (run + 1) stream)

theorem traces_endsInTime (interval : Option Duration) :
    Traces (endsInTime interval) (endsInTime interval) := by
  cases interval with
  | none => exact .pure true
  | some d => exact Traces.instant.bind fun _ => .pure _

theorem traces_repeatFor (h : ∀ run, Traces (x run) (y run)) (t : Tester) (bytes : UInt64) :
    Traces (repeatFor t bytes x) (repeatFor t bytes y) := by
  apply Traces.frequency.bind
  intro frequency
  apply (traces_endsInTime t.logInterval).bind
  intro inTime
  refine .ite ?_ (.pure _)
  apply Traces.patience.bind
  intro patience
  apply Traces.readTimer.bind
  intro start
  apply (traces_loop h start _ patience 0 .empty).bind
  rintro (cause | stream)
  · exact .pure _
  · exact .pure _

end Repetition

end Programs

end Chronometry
