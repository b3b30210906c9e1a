import Chronometry.Command.Run
import Chronometry.Proofs.ForeignTokens
import Chronometry.Proofs.Numeral

/-! The sections of a profile. Sections are found by their names, so loops of equal counts are kept apart
by their positions alone. Main statement: whenever the calibration succeeds, which profiles come to an end
and which sections they have. -/
namespace Chronometry

namespace Source
variable {s : Source} {n : Nat}

/-- At least `n` counter readings are left. A clock never runs out of them. -/
def Supplies (s : Source) (n : Nat) : Prop := ∀ t, s = .script t → n ≤ t.counter.length

theorem supplies_zero (s : Source) : s.Supplies 0 := fun t _ => Nat.zero_le t.counter.length

theorem supplies_advance_iff (ns : UInt64) : (s.advance ns).Supplies n ↔ s.Supplies n := by
  cases s with
  | clock c => exact ⟨fun _ => nofun, fun _ => nofun⟩
  | script t => exact Iff.rfl

theorem supplies_succ_iff {r : UInt64} (h : s.nextCounter = some r) :
    s.Supplies (n + 1) ↔ s.afterCounter.Supplies n := by
  cases s with
  | clock c => exact ⟨fun _ => nofun, fun _ => nofun⟩
  | script t =>
    obtain ⟨rest, hrest⟩ := List.head?_eq_some_iff.1 h
    simp [Supplies, afterCounter, hrest]

theorem not_supplies_of_none (h : s.nextCounter = none) : ¬ s.Supplies (n + 1) := by
  cases s with
  | clock c => cases h
  | script t =>
    have hnil : t.counter = [] := List.head?_eq_none_iff.1 h
    simp [Supplies, hnil]

end Source

/-- A trial takes `n` counter readings: with fewer it stops early, and otherwise it ends with a result of
which `post` holds, and with the other readings left. -/
def Trial.Draws {α : Type} (n : Nat) (x : Trial α) (post : α → Prop) : Prop :=
  ∀ b : Bench, (∃ a b', x b = (.ok a, b') ∧ post a ∧
      ∀ k, b.source.Supplies (n + k) ↔ b'.source.Supplies k) ∨
    (¬ b.source.Supplies n ∧ ∃ cause b', x b = (.error cause, b'))

namespace Trial
variable {α β : Type} {m n : Nat} {x : Trial α} {post : α → Prop}

theorem draws_pure {a : α} (h : post a) : Draws 0 (pure a) post := by
  intro b
  refine .inl ⟨a, b, rfl, h, fun k => ?_⟩
  rw [Nat.zero_add]

theorem draws_readCounter : Draws 1 (Clocks.readCounter : Trial UInt64) fun _ => True := by
  intro b
  cases hr : b.source.nextCounter with
  | none => exact .inr ⟨Source.not_supplies_of_none hr, _, _, readCounter_of_none hr⟩
  | some r =>
    refine .inl ⟨r, _, readCounter_of_some hr, trivial, fun k => ?_⟩
    rw [Nat.add_comm]
    exact Source.supplies_succ_iff hr

theorem draws_perform (w : Workload) : Draws 0 (Worker.perform w : Trial Unit) fun _ => True := by
  intro b
  refine .inl ⟨(), { b with source := b.source.advance w.nanoseconds }, rfl, trivial, fun k => ?_⟩
  rw [Nat.zero_add, Source.supplies_advance_iff]

theorem draws_record (r : Log.Record) : Draws 0 (Logger.record r : Trial Unit) fun _ => True := by
  intro b
  refine .inl ⟨(), { b with records := b.records.push r }, rfl, trivial, fun k => ?_⟩
  rw [Nat.zero_add]

/-- Readings add up along a sequence. -/
theorem Draws.bind {f : α → Trial β} {post' : β → Prop} (hx : Draws m x post)
    (hf : ∀ a, post a → Draws n (f a) post') : Draws (m + n) (x >>= f) post' := by
  intro b
  rcases hx b with ⟨a, b₁, hrun, hpost, hleft⟩ | ⟨hfew, cause, b₁, hrun⟩
  · rw [Program.bind_of_ok f hrun]
    rcases hf a hpost b₁ with ⟨r, b₂, hrun', hpost', hleft'⟩ | ⟨hfew, cause, b₂, hrun'⟩
    · refine .inl ⟨r, b₂, hrun', hpost', fun k => ?_⟩
      rw [Nat.add_assoc, hleft, hleft']
    · exact .inr ⟨mt (hleft n).1 hfew, cause, b₂, hrun'⟩
  · rw [Program.bind_of_error f hrun]
    refine .inr ⟨fun hmany => hfew fun t ht => ?_, cause, b₁, rfl⟩
    have := hmany t ht
    omega

theorem Draws.imp {post' : α → Prop} (hx : Draws n x post) (h : ∀ a, post a → post' a) :
    Draws n x post' := by
  intro b
  rcases hx b with ⟨a, b', hrun, hpost, hleft⟩ | hfew
  · exact .inl ⟨a, b', hrun, h a hpost, hleft⟩
  · exact .inr hfew

end Trial

namespace Profiler
variable {p : Profiler} {name : String}

theorem draws_begin (p : Profiler) (name : String) (bytes : UInt64) :
    Trial.Draws 1 (p.begin name bytes : Trial _) fun entered => ∃ start, entered = p.enter name bytes start :=
  Trial.draws_readCounter.bind fun r _ => Trial.draws_pure ⟨⟨r⟩, rfl⟩

theorem draws_finish (p : Profiler) (t : Token) :
    Trial.Draws 1 (p.finish t : Trial _) fun left => ∃ stop, left = p.leave t stop := by
  unfold finish
  refine Trial.draws_readCounter.bind (n := 0) fun r _ => ?_
  have hleave : Trial.Draws 0 (pure (p.leave t ⟨r⟩)) fun left => ∃ stop, left = p.leave t stop :=
    Trial.draws_pure ⟨⟨r⟩, rfl⟩
  cases p.owns t
  · exact (Trial.draws_record foreignToken).bind fun _ _ => hleave
  · exact hleave

theorem draws_time (p : Profiler) (name : String) (bytes : UInt64) (w : Workload) :
    Trial.Draws 2 (p.time name bytes (Worker.perform w) : Trial _) fun q =>
      ∃ start stop, q = ((p.enter name bytes start).1.leave (p.enter name bytes start).2 stop).1 := by
  refine (p.draws_begin name bytes).bind (n := 1) fun entered hentered => ?_
  obtain ⟨start, rfl⟩ := hentered
  refine (Trial.draws_perform w).bind (n := 1) fun _ _ => ?_
  refine (draws_finish _ _).bind (n := 0) fun left hleft => ?_
  obtain ⟨stop, rfl⟩ := hleft
  exact Trial.draws_pure ⟨start, stop, rfl⟩

theorem declare_of_fresh (h : name ∉ p.sections.map (·.name)) :
    (p.declare name).sections = p.sections ++ [⟨name, ⟨0⟩, 0, 0⟩] := by
  rw [declare, if_neg (mt (p.indexOf_lt_iff name).1 h)]

theorem hit_empty (name : String) (elapsed : Ticks) (bytes : UInt64) :
    hit ⟨name, ⟨0⟩, 0, 0⟩ elapsed bytes = ⟨name, elapsed, 1, bytes⟩ := by
  have hzero : ∀ w : UInt64, Word.add 0 w = w := by
    intro w
    have := w.toNat_lt
    apply UInt64.toNat_inj.1
    rw [Word.toNat_add, Word.maxNat]
    change min (0 + w.toNat) _ = _
    omega
  have hticks : (⟨0⟩ + elapsed : Ticks) = elapsed := congrArg Ticks.mk (hzero elapsed.count)
  rw [hit, hticks, hzero, UInt64.zero_add]

/-- A pass under a new name becomes the last section. -/
theorem sections_pass_of_fresh (h : name ∉ p.sections.map (·.name)) (bytes : UInt64)
    (start stop : Stamp) :
    ((p.enter name bytes start).1.leave (p.enter name bytes start).2 stop).1.sections =
      p.sections ++ [⟨name, stop.since start, 1, bytes⟩] := by
  have hsections : (p.enter name bytes start).1.sections = p.sections ++ [⟨name, ⟨0⟩, 0, 0⟩] :=
    declare_of_fresh h
  have hindex : (p.enter name bytes start).2.index = p.sections.length := by
    rw [index_enter, List.idxOf_eq_length h, List.length_map]
  have hplace : (p.enter name bytes start).1.sections[(p.enter name bytes start).2.index]? =
      some ⟨name, ⟨0⟩, 0, 0⟩ := by
    rw [hsections, hindex, List.getElem?_concat_length]
  rw [leave_of_some hplace, hsections, hindex, hit_empty]
  simp only [List.set_append_right _ _ (Nat.le_refl _), Nat.sub_self, List.set_cons_zero]
  rfl

end Profiler

namespace Command

/-- The digits of the position end at the blank behind them. -/
theorem loopName_inj {i j : Nat} {m n : UInt64} (h : loopName i m = loopName j n) : i = j := by
  have hlist : ∀ (k : Nat) (w : UInt64), (loopName k w).toList =
      "spin #".toList ++
        ((Numeral.ofNat (k + 1)).digits ++ (' ' :: '(' :: (Word.text w ++ ")").toList)) := by
    intro k w
    simp [loopName, Numeral.ofNat]
  have htext := congrArg String.toList h
  rw [hlist, hlist, List.append_cancel_left_eq] at htext
  have hblank : ∀ cs : List Char, ∀ c ∈ (' ' :: cs).head?, c.isDigit = false := by
    intro cs c hc
    cases hc
    decide
  have hnumeral := (Numeral.append_inj (hblank _) (hblank _) htext).1
  have hvalue := congrArg Numeral.value hnumeral
  rw [Numeral.value_ofNat, Numeral.value_ofNat] at hvalue
  omega

theorem fillName_ne_loopName (i : Nat) (n : UInt64) : fillName ≠ loopName i n := by
  intro h
  have hfirst := congrArg (fun name : String => name.toList.head?) h
  simp [fillName, loopName] at hfirst

section Loops
variable {p : Profiler} {k : Nat}

/-- The sections are loops at positions before `k`. -/
def Looped (p : Profiler) (k : Nat) : Prop := ∀ x ∈ p.sections, ∃ i n, i < k ∧ x.name = loopName i n

theorem Looped.fresh (h : Looped p k) (n : UInt64) : loopName k n ∉ p.sections.map (·.name) := by
  intro hmem
  obtain ⟨x, hx, hname⟩ := List.mem_map.1 hmem
  obtain ⟨i, m, hi, hname'⟩ := h x hx
  have hsame := loopName_inj (hname'.symm.trans hname)
  omega

theorem Looped.fresh_fill (h : Looped p k) : fillName ∉ p.sections.map (·.name) := by
  intro hmem
  obtain ⟨x, hx, hname⟩ := List.mem_map.1 hmem
  obtain ⟨i, m, -, hname'⟩ := h x hx
  exact fillName_ne_loopName i m (hname.symm.trans hname')

/-- What is known of the sections apart from their times. -/
def tallies (p : Profiler) : List (String × UInt64 × UInt64) :=
  p.sections.map fun s => (s.name, s.hits, s.bytes)

theorem draws_time_fresh {name : String} (h : name ∉ p.sections.map (·.name)) (bytes : UInt64)
    (w : Workload) :
    Trial.Draws 2 (p.time name bytes (Worker.perform w) : Trial _) fun q =>
      ∃ ticks, q.sections = p.sections ++ [⟨name, ticks, 1, bytes⟩] := by
  refine (p.draws_time name bytes w).imp fun q hq => ?_
  obtain ⟨start, stop, rfl⟩ := hq
  exact ⟨_, Profiler.sections_pass_of_fresh h bytes start stop⟩

theorem draws_profileLoops (iterations : List UInt64) (h : Looped p k) :
    Trial.Draws (2 * iterations.length) (profileLoops k iterations p : Trial _) fun q =>
      Looped q (k + iterations.length) ∧
        tallies q = tallies p ++ iterations.mapIdx fun i n => (loopName (k + i) n, 1, 0) := by
  -- All names so far have earlier positions, so the name of the next loop is new and no pass is added to
  -- a section that is there.
  induction iterations generalizing k p with
  | nil => exact Trial.draws_pure ⟨h, by simp⟩
  | cons n rest ih =>
    have hreads : 2 * (n :: rest).length = 2 + 2 * rest.length := by
      rw [List.length_cons]
      omega
    rw [hreads]
    refine (draws_time_fresh (h.fresh n) 0 (.loop n)).bind fun q hq => ?_
    obtain ⟨ticks, hsections⟩ := hq
    have hlooped : Looped q (k + 1) := by
      intro x hx
      rw [hsections, List.mem_append, List.mem_singleton] at hx
      rcases hx with hx | rfl
      · obtain ⟨i, m, hi, hname⟩ := h x hx
        exact ⟨i, m, Nat.lt_succ_of_lt hi, hname⟩
      · exact ⟨k, n, Nat.lt_succ_self k, rfl⟩
    have htallies : tallies q = tallies p ++ [(loopName k n, 1, 0)] := by
      simp [tallies, hsections]
    refine (ih hlooped).imp fun r hr => ?_
    obtain ⟨hr, hrest⟩ := hr
    refine ⟨?_, ?_⟩
    · rwa [List.length_cons, Nat.add_comm rest.length, ← Nat.add_assoc]
    · rw [hrest, htallies, List.mapIdx_cons, List.append_assoc]
      simp only [Nat.add_assoc, Nat.add_comm 1, Nat.add_zero, List.singleton_append]

theorem draws_profileAll (frequency : UInt64) (iterations : List UInt64) (fill : Option UInt64) :
    Trial.Draws (2 * (iterations.length + fill.toList.length))
      (profileAll (.new frequency) iterations fill : Trial _) fun q =>
        tallies q = (iterations.mapIdx fun i n => (loopName i n, 1, 0)) ++
          (fill.map fun bytes => (fillName, 1, bytes)).toList := by
  have hempty : Looped (.new frequency) 0 := fun x hx => absurd hx List.not_mem_nil
  rw [Nat.mul_add]
  refine (draws_profileLoops iterations hempty).bind fun q hq => ?_
  obtain ⟨hlooped, hloops⟩ := hq
  have hloops : tallies q = iterations.mapIdx fun i n => (loopName i n, 1, 0) := by
    simpa [tallies, Profiler.new] using hloops
  cases fill with
  | none => exact Trial.draws_pure (by simp [hloops])
  | some bytes =>
    refine (draws_time_fresh hlooped.fresh_fill bytes (.fill bytes)).imp fun r hr => ?_
    obtain ⟨ticks, hsections⟩ := hr
    simp [tallies, hsections, ← hloops]

end Loops

section Profile
variable {α β : Type} {b b₁ : Bench}

theorem run_bind_of_ok {x : ExceptT Refusal Trial α} {a : α} (f : α → ExceptT Refusal Trial β)
    (h : x.run b = (.ok (.ok a), b₁)) : (x >>= f).run b = (f a).run b₁ :=
  Program.bind_of_ok (ExceptT.bindCont f) h

theorem run_bind_of_refused {x : ExceptT Refusal Trial α} {r : Refusal} (f : α → ExceptT Refusal Trial β)
    (h : x.run b = (.ok (.error r), b₁)) : (x >>= f).run b = (.ok (.error r), b₁) :=
  Program.bind_of_ok (ExceptT.bindCont f) h

theorem run_reserve (bytes : UInt64) (b : Bench) :
    (reserve bytes : ExceptT Refusal Trial Unit).run b =
      (.ok (if 0x8000_0000_0000_0000 ≤ bytes.toNat then .error .bufferTooLarge
        else if b.memory < bytes.toNat then .error .outOfMemory else .ok ()), b) := by
  have hmemory : (liftM (Worker.memory : Trial Nat) : ExceptT Refusal Trial Nat).run b =
      (.ok (.ok b.memory), b) := rfl
  unfold reserve
  split
  · rfl
  · refine (run_bind_of_ok _ hmemory).trans ?_
    split
    · rfl
    · rfl

/-- A buffer can be had, if one is asked for. -/
def Fits (b : Bench) (fill : Option UInt64) : Prop :=
  ∀ bytes ∈ fill, bytes.toNat < 2 ^ 63 ∧ bytes.toNat ≤ b.memory

theorem run_reserve_of_fits {fill : Option UInt64} (h : Fits b fill) :
    (fill.forM reserve : ExceptT Refusal Trial Unit).run b = (.ok (.ok ()), b) := by
  cases fill with
  | none => rfl
  | some bytes =>
    obtain ⟨hword, hmemory⟩ := h bytes rfl
    change (reserve bytes : ExceptT Refusal Trial Unit).run b = _
    rw [run_reserve, if_neg (by omega), if_neg (by omega)]

def shortage (bytes : UInt64) : Refusal :=
  if 2 ^ 63 ≤ bytes.toNat then .bufferTooLarge else .outOfMemory

theorem fits_some_iff {bytes : UInt64} :
    Fits b (some bytes) ↔ bytes.toNat < 2 ^ 63 ∧ bytes.toNat ≤ b.memory := by
  simp [Fits]

theorem run_reserve_of_not_fits {bytes : UInt64} (h : ¬ Fits b (some bytes)) :
    (reserve bytes : ExceptT Refusal Trial Unit).run b = (.ok (.error (shortage bytes)), b) := by
  rw [fits_some_iff] at h
  rw [run_reserve, shortage]
  by_cases hword : 2 ^ 63 ≤ bytes.toNat
  · rw [if_pos hword, if_pos (by omega)]
  · rw [if_neg hword, if_neg (by omega), if_pos (by omega)]

/-- Results are compared without their refusals, which can hold a float. -/
theorem eq_of_answer {α : Type} {x : Except Halt (Except Refusal α) × Bench} {a : α}
    (h : x.1.toOption.bind Except.toOption = some a) : x = (.ok (.ok a), x.2) := by
  obtain ⟨(cause | (r | a')), b⟩ := x
  · cases h
  · cases h
  · cases h
    rfl

variable {counter : CounterOptions} {options : CalibrationOptions} {calibration : Calibration}
  {iterations : List UInt64} {fill : Option UInt64}

/-- Something is to be profiled, its buffer can be had, and the counter readings last. -/
def Feasible (b : Bench) (iterations : List UInt64) (fill : Option UInt64) : Prop :=
  ¬ (iterations = [] ∧ fill = none) ∧ Fits b fill ∧
    b.source.Supplies (2 * (iterations.length + fill.toList.length))

section Run
variable (hcalibration : (calibrateCounter counter options : ExceptT Refusal Trial _).run b =
  (.ok (.ok calibration), b₁))
include hcalibration

theorem run_measureProfile (h : ¬ (iterations = [] ∧ fill = none)) :
    (measureProfile counter options iterations fill : ExceptT Refusal Trial _).run b =
      (do
        fill.forM reserve
        (profileAll (.new calibration.estimate) iterations fill : Trial _) :
          ExceptT Refusal Trial _).run b₁ := by
  unfold measureProfile
  rw [if_neg h]
  exact run_bind_of_ok _ hcalibration

theorem run_measureProfile_of_feasible (h : Feasible b₁ iterations fill) :
    ∃ p b₂, (measureProfile counter options iterations fill : ExceptT Refusal Trial _).run b =
        (.ok (.ok p), b₂) ∧
      tallies p = (iterations.mapIdx fun i n => (loopName i n, 1, 0)) ++
        (fill.map fun bytes => (fillName, 1, bytes)).toList := by
  obtain ⟨hsome, hfits, hsupplies⟩ := h
  rw [run_measureProfile hcalibration hsome, run_bind_of_ok _ (run_reserve_of_fits hfits)]
  rcases draws_profileAll calibration.estimate iterations fill b₁ with
    ⟨p, b₂, hrun, htallies, -⟩ | ⟨hfew, -⟩
  · exact ⟨p, b₂, Program.map_of_ok Except.ok hrun, htallies⟩
  · exact absurd hsupplies hfew

/-- Without its buffer a profile stops before the first loop. -/
theorem run_measureProfile_of_not_fits {bytes : UInt64} (h : ¬ Fits b₁ (some bytes)) :
    (measureProfile counter options iterations (some bytes) : ExceptT Refusal Trial _).run b =
      (.ok (.error (shortage bytes)), b₁) := by
  have hsome : ¬ (iterations = [] ∧ some bytes = none) := fun hnothing => nomatch hnothing.2
  rw [run_measureProfile hcalibration hsome]
  exact run_bind_of_refused _ (run_reserve_of_not_fits h)

/-- A profile that is not feasible is refused, or stops where the readings end. -/
theorem run_measureProfile_of_not_feasible (h : ¬ Feasible b₁ iterations fill) (p : Profiler) (b₂ : Bench) :
    (measureProfile counter options iterations fill : ExceptT Refusal Trial _).run b ≠
      (.ok (.ok p), b₂) := by
  by_cases hnothing : iterations = [] ∧ fill = none
  · unfold measureProfile
    rw [if_pos hnothing]
    exact nofun
  by_cases hfits : Fits b₁ fill
  · rw [run_measureProfile hcalibration hnothing]
    have hfew : ¬ b₁.source.Supplies (2 * (iterations.length + fill.toList.length)) :=
      fun hmany => h ⟨hnothing, hfits, hmany⟩
    rw [run_bind_of_ok _ (run_reserve_of_fits hfits)]
    rcases draws_profileAll calibration.estimate iterations fill b₁ with
      ⟨q, b₃, -, -, hleft⟩ | ⟨-, cause, b₃, hrun⟩
    · exact absurd ((hleft 0).2 b₃.source.supplies_zero) hfew
    · intro hok
      cases (Program.map_of_error Except.ok hrun).symm.trans hok
  · cases fill with
    | none => exact absurd (fun bytes hbytes => absurd hbytes (Option.not_mem_none bytes)) hfits
    | some bytes =>
      rw [run_measureProfile_of_not_fits hcalibration hfits]
      exact nofun

end Run

end Profile

/-- Once the calibration has succeeded, a profile comes to an end exactly if there is something to profile,
its buffer can be had and the counter readings last. However often a count is repeated, each loop then has a
section of its own, in order, and the buffer has the last one. If the buffer cannot be had, the profile is
refused just after the calibration, before anything else is read or recorded. -/
theorem profile_sections (counter : CounterOptions) (options : CalibrationOptions)
    (iterations : List UInt64) (fill : Option UInt64) (b b₁ : Bench) (calibration : Calibration)
    (h : (calibrateCounter counter options : ExceptT Refusal Trial _).run b =
      (.ok (.ok calibration), b₁)) :
    ((∃ p b₂, (measureProfile counter options iterations fill : ExceptT Refusal Trial _).run b =
        (.ok (.ok p), b₂)) ↔
      ¬ (iterations = [] ∧ fill = none) ∧
        (∀ bytes ∈ fill, bytes.toNat < 2 ^ 63 ∧ bytes.toNat ≤ b₁.memory) ∧
        ∀ s, b₁.source = .script s → 2 * (iterations.length + fill.toList.length) ≤ s.counter.length) ∧
    (∀ p b₂, (measureProfile counter options iterations fill : ExceptT Refusal Trial _).run b =
        (.ok (.ok p), b₂) →
      p.sections.map (fun s => (s.name, s.hits, s.bytes)) =
        (iterations.mapIdx fun i n =>
          ("spin #" ++ (i + 1).repr ++ " (" ++ n.toNat.repr ++ ")", 1, 0)) ++
        (fill.map fun bytes => ("write_all_bytes", 1, bytes)).toList) ∧
    ∀ bytes ∈ fill, ¬ (bytes.toNat < 2 ^ 63 ∧ bytes.toNat ≤ b₁.memory) →
      (measureProfile counter options iterations fill : ExceptT Refusal Trial _).run b =
        (.ok (.error (if 2 ^ 63 ≤ bytes.toNat then .bufferTooLarge else .outOfMemory)), b₁) := by
  have hrefused : ∀ bytes ∈ fill, ¬ (bytes.toNat < 2 ^ 63 ∧ bytes.toNat ≤ b₁.memory) →
      (measureProfile counter options iterations fill : ExceptT Refusal Trial _).run b =
        (.ok (.error (shortage bytes)), b₁) := by
    intro bytes hbytes hshort
    cases hbytes
    exact run_measureProfile_of_not_fits h (mt fits_some_iff.1 hshort)
  by_cases hfeasible : Feasible b₁ iterations fill
  · obtain ⟨q, b₃, hrun, htallies⟩ := run_measureProfile_of_feasible h hfeasible
    refine ⟨⟨fun _ => hfeasible, fun _ => ⟨q, b₃, hrun⟩⟩, fun p b₂ hp => ?_, hrefused⟩
    cases hrun.symm.trans hp
    exact htallies
  · have hnever := run_measureProfile_of_not_feasible h hfeasible
    refine ⟨⟨?_, fun hall => absurd hall hfeasible⟩, fun p b₂ hp => absurd hp (hnever p b₂), hrefused⟩
    intro hok
    obtain ⟨p, b₂, hp⟩ := hok
    exact absurd hp (hnever p b₂)

theorem profile_sections_equal_counts :
    let b := Bench.ofSource (.script ⟨1000, [5, 6], [10, 20, 30, 20, 20, 50, 1, 2], none⟩)
    let calibrated := (calibrateCounter {} ⟨1, 10⟩ : ExceptT Refusal Trial _).run b
    let profiled := (measureProfile {} ⟨1, 10⟩ [5, 5] (some 8) : ExceptT Refusal Trial _).run b
    calibrated = (.ok (.ok ⟨10, 1, 1000, 10000⟩), calibrated.2) ∧
      ∃ p b₂, profiled = (.ok (.ok p), b₂) ∧
        p.sections.map (fun s => (s.name, s.hits, s.bytes)) =
          [("spin #1 (5)", 1, 0), ("spin #2 (5)", 1, 0), ("write_all_bytes", 1, 8)] := by
  intro b calibrated profiled
  have hcalibrated : calibrated = (.ok (.ok ⟨10, 1, 1000, 10000⟩), calibrated.2) :=
    eq_of_answer (by decide +kernel)
  have hmemory : calibrated.2.memory = addressSpace := by decide +kernel
  have hsource : calibrated.2.source = .script ⟨1000, [], [30, 20, 20, 50, 1, 2], none⟩ := by
    decide +kernel
  obtain ⟨hends, hsections, -⟩ := profile_sections {} ⟨1, 10⟩ [5, 5] (some 8) b _ _ hcalibrated
  have hbuffer : ∀ bytes ∈ some (8 : UInt64),
      bytes.toNat < 2 ^ 63 ∧ bytes.toNat ≤ calibrated.2.memory := by
    intro bytes hbytes
    cases hbytes
    rw [hmemory]
    decide
  have hreadings : ∀ s, calibrated.2.source = .script s → 6 ≤ s.counter.length := by
    intro s hs
    cases hsource.symm.trans hs
    decide
  obtain ⟨p, b₂, hprofiled⟩ := hends.2 ⟨by decide, hbuffer, hreadings⟩
  exact ⟨hcalibrated, p, b₂, hprofiled, hsections p b₂ hprofiled⟩

/-- With a buffer that no memory can hold, the profile ends before its first section. -/
theorem profile_sections_large_buffer :
    let b := Bench.ofSource (.script ⟨1000, [5, 6], [10, 20, 30, 20, 20, 50], none⟩)
    let calibrated := (calibrateCounter {} ⟨1, 10⟩ : ExceptT Refusal Trial _).run b
    let profiled :=
      (measureProfile {} ⟨1, 10⟩ [5] (some 0x8000_0000_0000_0000) : ExceptT Refusal Trial _).run b
    calibrated = (.ok (.ok ⟨10, 1, 1000, 10000⟩), calibrated.2) ∧
      profiled = (.ok (.error .bufferTooLarge), calibrated.2) := by
  intro b calibrated profiled
  have hcalibrated : calibrated = (.ok (.ok ⟨10, 1, 1000, 10000⟩), calibrated.2) :=
    eq_of_answer (by decide +kernel)
  refine ⟨hcalibrated, (run_measureProfile hcalibrated (by decide)).trans ?_⟩
  exact run_bind_of_refused _ (run_reserve 0x8000_0000_0000_0000 calibrated.2)

end Command

end Chronometry
