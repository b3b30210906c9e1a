import Chronometry.Bench

/-! Computations that can fail and change a state, one step at a time, and what the reads of a trial
find in their source. -/
namespace Chronometry

/-- A computation on a state that can fail; what it did before it failed stays done. -/
abbrev Program (ε σ : Type) := ExceptT ε (StateM σ)

namespace Program
variable {ε σ α β : Type}

theorem mk_apply (f : σ → Except ε α × σ) (s : σ) : (ExceptT.mk f : Program ε σ α) s = f s := rfl

theorem bind_apply (x : Program ε σ α) (f : α → Program ε σ β) (s : σ) :
    (x >>= f) s = match x s with
      | (.ok a, s₁) => f a s₁
      | (.error e, s₁) => (.error e, s₁) := by
  change ExceptT.bindCont f (x s).1 (x s).2 = _
  rcases x s with ⟨_ | _, _⟩ <;> rfl

theorem bind_of_ok {x : Program ε σ α} {s s₁ : σ} {a : α} (f : α → Program ε σ β)
    (h : x s = (.ok a, s₁)) : (x >>= f) s = f a s₁ := by
  rw [bind_apply, h]

theorem bind_of_error {x : Program ε σ α} {s s₁ : σ} {e : ε} (f : α → Program ε σ β)
    (h : x s = (.error e, s₁)) : (x >>= f) s = (.error e, s₁) := by
  rw [bind_apply, h]

theorem map_of_ok {x : Program ε σ α} {s s₁ : σ} {a : α} (f : α → β) (h : x s = (.ok a, s₁)) :
    (f <$> x) s = (.ok (f a), s₁) :=
  bind_of_ok (fun a => pure (f a)) h

theorem map_of_error {x : Program ε σ α} {s s₁ : σ} {e : ε} (f : α → β) (h : x s = (.error e, s₁)) :
    (f <$> x) s = (.error e, s₁) :=
  bind_of_error (fun a => pure (f a)) h

theorem snd_map (f : α → β) (x : Program ε σ α) (s : σ) : ((f <$> x) s).2 = (x s).2 := by
  rcases hx : x s with ⟨result, s₁⟩
  cases result with
  | ok a => rw [map_of_ok f hx]
  | error e => rw [map_of_error f hx]

theorem eq_of_fst_eq {x : Program ε σ α} {s : σ} {r : Except ε α} (h : (x s).1 = r) :
    x s = (r, (x s).2) := by
  subst h; rfl

/-- A sequence of computations succeeds if and only if each of them does. -/
theorem bind_eq_ok_iff {x : Program ε σ α} {f : α → Program ε σ β} {s s' : σ} {r : β} :
    (x >>= f) s = (.ok r, s') ↔ ∃ a s₁, x s = (.ok a, s₁) ∧ f a s₁ = (.ok r, s') := by
  rw [bind_apply]
  cases hx : x s with
  | mk result s₁ =>
    cases result with
    | error e =>
      constructor
      · intro h; cases h
      · rintro ⟨a, s₂, h, -⟩; cases h
    | ok a =>
      constructor
      · intro h; exact ⟨a, s₁, rfl, h⟩
      · rintro ⟨a', s₂, h, h'⟩; cases h; exact h'

theorem pure_eq_ok_iff {a r : α} {s s' : σ} :
    (pure a : Program ε σ α) s = (.ok r, s') ↔ a = r ∧ s = s' := by
  constructor
  · intro h; cases h; exact ⟨rfl, rfl⟩
  · rintro ⟨rfl, rfl⟩; rfl

theorem map_eq_ok_iff {x : Program ε σ α} {f : α → β} {s s' : σ} {r : β} :
    (f <$> x) s = (.ok r, s') ↔ ∃ a, x s = (.ok a, s') ∧ f a = r := by
  change (x >>= fun a => pure (f a)) s = _ ↔ _
  rw [bind_eq_ok_iff]
  constructor
  · rintro ⟨a, s₁, hx, h⟩
    obtain ⟨rfl, rfl⟩ := pure_eq_ok_iff.1 h
    exact ⟨a, hx, rfl⟩
  · rintro ⟨a, hx, rfl⟩
    exact ⟨a, s', hx, rfl⟩

end Program

/-- A read succeeds if the source has a reading for it. -/
theorem Trial.read_eq_ok_iff {probe : Probe} {next : Source → Option (UInt64 × Source)} {b b' : Bench}
    {r : UInt64} {reading : Option UInt64} {source : Source}
    (h : next b.source = reading.map fun r => (r, source)) :
    read probe next b = (.ok r, b') ↔
      reading = some r ∧ b' = { b with source, reads := b.reads.push probe } := by
  rw [read, Program.mk_apply, h]
  cases reading with
  | none =>
    constructor
    · intro h; cases h
    · rintro ⟨h, -⟩; cases h
  | some q =>
    constructor
    · intro h; cases h; exact ⟨rfl, rfl⟩
    · rintro ⟨h, rfl⟩; cases h; rfl

namespace Source

/-- The timer reading that comes after `i` others, if there is one. -/
def timerAt : Source → Nat → Option UInt64
  | .clock c, i => some (Clock.scale (c.now + .ofNat (i + 1) * c.step) c.frequency)
  | .script s, i => s.timer[i]?

/-- The source after `k` timer readings. -/
def afterTimers : Source → Nat → Source
  | .clock c, k => .clock (c.advance (.ofNat k * c.step))
  | .script s, k => .script { s with timer := s.timer.drop k }

theorem afterTimers_zero (s : Source) : s.afterTimers 0 = s := by
  cases s <;> simp [afterTimers, Clock.advance]

theorem afterTimers_afterTimers (s : Source) (j k : Nat) :
    (s.afterTimers j).afterTimers k = s.afterTimers (j + k) := by
  cases s with
  | clock c =>
    have h : c.now + .ofNat j * c.step + .ofNat k * c.step = c.now + .ofNat (j + k) * c.step := by
      rw [UInt64.ofNat_add, UInt64.add_mul, UInt64.add_assoc]
    simp only [afterTimers, Clock.advance, h]
  | script s => simp [afterTimers]

theorem timerAt_afterTimers (s : Source) (k i : Nat) :
    (s.afterTimers k).timerAt i = s.timerAt (k + i) := by
  cases s with
  | clock c =>
    have h : c.now + .ofNat k * c.step + .ofNat (i + 1) * c.step =
        c.now + .ofNat (k + i + 1) * c.step := by
      rw [Nat.add_assoc, UInt64.ofNat_add k, UInt64.add_mul, UInt64.add_assoc]
    simp only [afterTimers, Clock.advance, timerAt, h]
  | script s => simp [afterTimers, timerAt]

theorem readTimer_eq (s : Source) : s.readTimer = (s.timerAt 0).map fun r => (r, s.afterTimers 1) := by
  cases s with
  | clock c => simp [readTimer, Clock.readTimer, timerAt, afterTimers, Clock.advance]
  | script s =>
    obtain ⟨frequency, timer, counter, reported⟩ := s
    cases timer <;> rfl

/-- The next counter reading, if there is one. -/
def nextCounter : Source → Option UInt64
  | .clock c => some c.readCounter
  | .script s => s.counter.head?

/-- The source after one counter reading. -/
def afterCounter : Source → Source
  | .clock c => .clock c
  | .script s => .script { s with counter := s.counter.tail }

theorem readCounter_eq (s : Source) :
    s.readCounter = s.nextCounter.map fun r => (r, s.afterCounter) := by
  cases s with
  | clock c => rfl
  | script s =>
    obtain ⟨frequency, timer, counter, reported⟩ := s
    cases counter <;> rfl

theorem timerAt_afterCounter (s : Source) : s.afterCounter.timerAt = s.timerAt := by
  cases s <;> rfl

theorem afterTimers_afterCounter (s : Source) (k : Nat) :
    s.afterCounter.afterTimers k = (s.afterTimers k).afterCounter := by
  cases s <;> rfl

end Source

/-- The bench after `k` timer readings. -/
def Bench.afterTimers (b : Bench) (k : Nat) : Bench :=
  { b with source := b.source.afterTimers k, reads := b.reads ++ Array.replicate k .timer }

namespace Bench

theorem afterTimers_zero (b : Bench) : b.afterTimers 0 = b := by
  simp [afterTimers, Source.afterTimers_zero]

theorem afterTimers_afterTimers (b : Bench) (j k : Nat) :
    (b.afterTimers j).afterTimers k = b.afterTimers (j + k) := by
  simp [afterTimers, Source.afterTimers_afterTimers, Array.append_assoc]

end Bench

/-- The bench after one counter reading. -/
def Bench.afterCounter (b : Bench) : Bench :=
  { b with source := b.source.afterCounter, reads := b.reads.push .counter }

theorem Trial.readTimer_eq_ok_iff {b b' : Bench} {r : UInt64} :
    (Clocks.readTimer : Trial UInt64) b = (.ok r, b') ↔
      b.source.timerAt 0 = some r ∧ b' = b.afterTimers 1 := by
  have hb : b.afterTimers 1 =
      { b with source := b.source.afterTimers 1, reads := b.reads.push .timer } := by
    simp [Bench.afterTimers]
  rw [hb]
  exact read_eq_ok_iff b.source.readTimer_eq

/-- The bench after a read for which the source has no reading. -/
def Bench.afterMiss (b : Bench) (probe : Probe) : Bench := { b with reads := b.reads.push probe }

theorem Trial.readCounter_of_some {b : Bench} {r : UInt64} (h : b.source.nextCounter = some r) :
    (Clocks.readCounter : Trial UInt64) b = (.ok r, b.afterCounter) := by
  change read .counter Source.readCounter b = _
  rw [read, Program.mk_apply, Source.readCounter_eq, h]
  rfl

theorem Trial.readCounter_of_none {b : Bench} (h : b.source.nextCounter = none) :
    (Clocks.readCounter : Trial UInt64) b = (.error .exhausted, b.afterMiss .counter) := by
  change read .counter Source.readCounter b = _
  rw [read, Program.mk_apply, Source.readCounter_eq, h]
  rfl

theorem Trial.readCounter_eq_ok_iff {b b' : Bench} {r : UInt64} :
    (Clocks.readCounter : Trial UInt64) b = (.ok r, b') ↔
      b.source.nextCounter = some r ∧ b' = b.afterCounter :=
  read_eq_ok_iff b.source.readCounter_eq

end Chronometry
