import Chronometry.Proofs.Bookkeeping
import Mathlib.Data.List.Basic

/-! Tokens that end on another profiler than the one that began them. A token knows the place of its
section and not the name. Main statement: an end of a token whose name the profiler does not have is
recorded all the same, under another name, unless the place lies beyond the sections of the profiler. -/
namespace Chronometry

namespace Profiler
variable (p : Profiler)

theorem indexOf_lt_iff (name : String) :
    p.indexOf name < p.sections.length ↔ name ∈ p.sections.map (·.name) := by
  rw [indexOf_eq_idxOf, ← List.idxOf_lt_length_iff, List.length_map]

theorem map_name_declare (name : String) : (p.declare name).sections.map (·.name) =
    if name ∈ p.sections.map (·.name) then p.sections.map (·.name)
    else p.sections.map (·.name) ++ [name] := by
  unfold declare
  by_cases hname : name ∈ p.sections.map (·.name)
  · rw [if_pos ((p.indexOf_lt_iff name).2 hname), if_pos hname]
  · rw [if_neg (mt (p.indexOf_lt_iff name).1 hname), if_neg hname, List.map_append]
    rfl

section Leave
variable {p} {t : Token}

theorem owns_eq_false (h : p.sections.length ≤ t.index) : p.owns t = false :=
  decide_eq_false (Nat.not_lt.2 h)

theorem owns_eq_true {x : Section} (h : p.sections[t.index]? = some x) : p.owns t = true := by
  obtain ⟨hlt, -⟩ := List.getElem?_eq_some_iff.1 h
  exact decide_eq_true hlt

theorem leave_of_le (h : p.sections.length ≤ t.index) (stop : Stamp) :
    p.leave t stop = (p, stop.since t.start) := by
  rw [leave, owns_eq_false h]
  rfl

/-- An end is recorded in whichever section stands at the place of the token. -/
theorem leave_of_some {x : Section} (h : p.sections[t.index]? = some x) (stop : Stamp) :
    p.leave t stop =
      ({ p with
          sections := p.sections.set t.index (hit x (stop.since t.start) t.bytes)
          last := some (laterOf p.last stop) }, stop.since t.start) := by
  rw [leave, if_pos (owns_eq_true h), List.modify_eq_set_getElem?, h]
  rfl

theorem map_name_leave (stop : Stamp) :
    (p.leave t stop).1.sections.map (·.name) = p.sections.map (·.name) := by
  cases h : p.sections[t.index]? with
  | none => rw [leave_of_le (List.getElem?_eq_none_iff.1 h)]
  | some x =>
    obtain ⟨hlt, rfl⟩ := List.getElem?_eq_some_iff.1 h
    have hplace : t.index < (p.sections.map (·.name)).length := by rwa [List.length_map]
    have hself := List.set_getElem_self hplace
    rw [List.getElem_map] at hself
    rw [leave_of_some h, List.map_set]
    exact hself

/-- One hit more is never the same number of hits, not even when they wrap. -/
theorem hit_ne (x : Section) (elapsed : Ticks) (bytes : UInt64) : hit x elapsed bytes ≠ x := by
  intro h
  have hhits : x.hits + 1 = x.hits := congrArg Section.hits h
  exact absurd hhits (by simp)

/-- Only a token without a place leaves the sections and the total as they are. -/
theorem leave_unchanged_iff (stop : Stamp) :
    (p.leave t stop).1.sections = p.sections ∧ (p.leave t stop).1.total = p.total ↔
      p.sections.length ≤ t.index := by
  constructor
  · rintro ⟨hsections, -⟩
    rw [← List.getElem?_eq_none_iff, Option.eq_none_iff_forall_ne_some]
    intro x hx
    obtain ⟨hlt, -⟩ := List.getElem?_eq_some_iff.1 hx
    have hhit := congrArg (·[t.index]?) hsections
    rw [leave_of_some hx, List.getElem?_set_self hlt, hx] at hhit
    exact hit_ne x _ _ (Option.some.inj hhit)
  · intro h
    rw [leave_of_le h]
    exact ⟨rfl, rfl⟩

end Leave

/-- A token stands for the place that its name had before the begin, or took then. -/
theorem index_enter (name : String) (bytes : UInt64) (start : Stamp) :
    (p.enter name bytes start).2.index = (p.sections.map (·.name)).idxOf name := by
  change (p.declare name).indexOf name = _
  rw [indexOf_eq_idxOf, map_name_declare]
  by_cases hname : name ∈ p.sections.map (·.name)
  · rw [if_pos hname]
  · rw [if_neg hname, List.idxOf_append, if_neg hname, List.idxOf_cons_self,
      List.idxOf_eq_length hname, Nat.zero_add]

end Profiler

namespace Session

/-- The sections of every profiler are called as its history says, wherever sections end. -/
def Named (profilers : List Profiler) (hs : List History) : Prop :=
  profilers.map (fun p => p.sections.map (·.name)) = hs.map History.names

namespace Named
variable {profilers : List Profiler} {hs : List History} {n : Nat} {p q : Profiler} {h : History}

theorem getElem? (hn : Named profilers hs) (n : Nat) :
    profilers[n]?.map (fun p => p.sections.map (·.name)) = hs[n]?.map History.names := by
  rw [← List.getElem?_map, ← List.getElem?_map, hn]

theorem exists_history (hn : Named profilers hs) (hp : profilers[n]? = some p) :
    ∃ h, hs[n]? = some h ∧ p.sections.map (·.name) = h.names := by
  have hnames := hn.getElem? n
  rw [hp, Option.map_some] at hnames
  obtain ⟨h, hh, hnames⟩ := Option.map_eq_some_iff.1 hnames.symm
  exact ⟨h, hh, hnames.symm⟩

theorem history_of_unknown (hn : Named profilers hs) (hp : profilers[n]? = none) : hs[n]? = none := by
  have hnames := hn.getElem? n
  rw [hp, Option.map_none] at hnames
  exact Option.map_eq_none_iff.1 hnames.symm

theorem modify_of_unknown (hn : Named profilers hs) (hp : profilers[n]? = none)
    (f : History → History) : hs.modify n f = hs :=
  List.modify_eq_self (List.getElem?_eq_none_iff.1 (hn.history_of_unknown hp))

theorem set (hn : Named profilers hs) (hp : profilers[n]? = some p) {f : History → History}
    (hq : ∀ h : History, p.sections.map (·.name) = h.names → q.sections.map (·.name) = (f h).names) :
    Named (profilers.set n q) (hs.modify n f) := by
  obtain ⟨h, hh, hnames⟩ := hn.exists_history hp
  apply List.ext_getElem?
  intro j
  rw [List.map_set, List.getElem?_set, List.getElem?_map, List.getElem?_map, List.getElem?_modify]
  by_cases hj : n = j
  · subst hj
    obtain ⟨hlt, -⟩ := List.getElem?_eq_some_iff.1 hp
    simp [hh, hq h hnames, hlt]
  · simp [hj, hn.getElem? j]

theorem modify (hn : Named profilers hs) {f : History → History} (hf : ∀ h : History, (f h).names = h.names)
    (n : Nat) : Named profilers (hs.modify n f) := by
  refine Eq.trans hn (List.ext_getElem? fun j => ?_)
  rw [List.getElem?_map, List.getElem?_map, List.getElem?_modify]
  cases hs[j]? with
  | none => rfl
  | some h => by_cases hj : n = j <;> simp [hj, hf]

theorem append (hn : Named profilers hs) (hq : q.sections.map (·.name) = h.names) :
    Named (profilers ++ [q]) (hs ++ [h]) := by
  unfold Named at hn ⊢
  rw [List.map_append, List.map_append, hn, List.map_singleton, List.map_singleton, hq]

end Named

section Steps
variable {s : Session} {hs : List History}

theorem names_begunEvents (h : History) (name : String) (bytes : UInt64) :
    History.names (h ++ s.begunEvents name bytes) =
      if name ∈ h.names then h.names else h.names ++ [name] := by
  unfold begunEvents
  split
  · exact h.names_begun none name bytes none
  · exact h.names_begun _ name bytes _

theorem names_endedEvents (n number : Nat) (h : History) :
    History.names (h ++ s.endedEvents n number h) = h.names := by
  unfold endedEvents
  split
  · exact h.names_ended _ _ _ _
  · rw [List.append_nil]

theorem names_timedEvents (h : History) (name : String) (ns : UInt64) :
    History.names (h ++ s.timedEvents name ns) =
      if name ∈ h.names then h.names else h.names ++ [name] := by
  unfold timedEvents
  split
  · exact h.names_begun none name 0 none
  · split
    · exact h.names_begun none name 0 _
    · rw [List.append_cons, History.names_ended, History.names_begun]

theorem Named.step_begin (hn : Named s.profilers hs) (n : Nat) (name : String) (bytes : UInt64) :
    Named (s.edited (.begin n name bytes)).1 (s.historiesAfter hs (.begin n name bytes)) := by
  rw [historiesAfter]
  cases hp : s.profilers[n]? with
  | none =>
    rw [edited_begin_of_unknown name bytes hp, hn.modify_of_unknown hp]
    exact hn
  | some p =>
    have hnames : ∀ h : History, p.sections.map (·.name) = h.names →
        (p.declare name).sections.map (·.name) = History.names (h ++ s.begunEvents name bytes) := by
      intro h hh
      rw [p.map_name_declare, hh, names_begunEvents]
    cases hr : s.bench.source.nextCounter with
    | none =>
      rw [edited_begin_of_none name bytes hp hr]
      exact hn.set hp hnames
    | some r =>
      rw [edited_begin_of_some name bytes hp hr]
      exact hn.set hp hnames

/-- An end gives no section another name, whoever began it. -/
theorem Named.step_finish (hn : Named s.profilers hs) (n number : Nat) :
    Named (s.edited (.finish n number)).1 (s.historiesAfter hs (.finish n number)) := by
  rw [historiesAfter]
  by_cases hok : ∃ t p r, s.tokens[number]? = some (some t) ∧ s.profilers[n]? = some p ∧
      s.bench.source.nextCounter = some r
  · obtain ⟨t, p, r, ht, hp, hr⟩ := hok
    rw [(step_finish_of_some ht hp hr).2]
    apply hn.set hp
    intro h hh
    rw [Profiler.map_name_leave, hh, names_endedEvents]
  · have hprofilers : (s.edited (.finish n number)).1 = s.profilers := by
      rcases (step_finish_of_failure hok).2 with hedited | hedited <;> rw [hedited]
    rw [hprofilers]
    exact hn.modify (names_endedEvents n number) n

theorem Named.step_time (hn : Named s.profilers hs) (n : Nat) (name : String) (ns : UInt64) :
    Named (s.edited (.time n name ns)).1 (s.historiesAfter hs (.time n name ns)) := by
  rw [historiesAfter]
  cases hp : s.profilers[n]? with
  | none =>
    rw [edited_time_of_unknown name ns hp, hn.modify_of_unknown hp]
    exact hn
  | some p =>
    have hnames : ∀ h : History, p.sections.map (·.name) = h.names →
        (p.declare name).sections.map (·.name) = History.names (h ++ s.timedEvents name ns) := by
      intro h hh
      rw [p.map_name_declare, hh, names_timedEvents]
    cases hr : s.bench.source.nextCounter with
    | none =>
      rw [edited_time_of_none name ns hp hr]
      exact hn.set hp hnames
    | some r =>
      rw [edited_time_of_some name ns hp hr]
      dsimp only
      split
      · exact hn.set hp hnames
      · refine hn.set hp fun h hh => ?_
        rw [Profiler.map_name_leave]
        exact hnames h hh

theorem Named.step (hn : Named s.profilers hs) (operation : Operation) :
    Named (s.edited operation).1 (s.historiesAfter hs operation) := by
  cases operation with
  | newProfiler frequency => exact hn.append rfl
  | copyProfiler n =>
    rw [edited_copyProfiler, historiesAfter]
    cases hp : s.profilers[n]? with
    | none =>
      rw [hn.history_of_unknown hp]
      simpa using hn
    | some p =>
      obtain ⟨h, hh, hnames⟩ := hn.exists_history hp
      rw [hh]
      exact hn.append hnames
  | begin n name bytes => exact hn.step_begin n name bytes
  | finish n number => exact hn.step_finish n number
  | time n name ns => exact hn.step_time n name ns
  | _ =>
    rw [edited_of_frames rfl]
    exact hn

theorem Named.run (hn : Named s.profilers hs) (operations : List Operation) :
    Named (s.run operations).2.profilers (s.histories hs operations) := by
  induction operations generalizing s hs with
  | nil => exact hn
  | cons operation rest ih => exact ih (hn.step operation)

end Steps

section Ends
variable {s : Session} {n number : Nat} {p : Profiler} {t : Token} {r : UInt64}

/-- An end is reported as foreign if and only if it is not recorded. -/
theorem records_finish (ht : s.tokens[number]? = some (some t)) (hp : s.profilers[n]? = some p)
    (hr : s.bench.source.nextCounter = some r) :
    (s.step (.finish n number)).1.records = if p.owns t then [] else [Profiler.foreignToken] := by
  change (Step.perform (.finish n number) s.fresh).2.bench.records.toList = _
  rw [perform_finish_of_some ht hp hr]
  change (p.afterEnd t (.ofSource s.bench.source)).records.toList = _
  unfold Profiler.afterEnd
  split
  · rfl
  · rfl

/-- A token is there from its begin until its end. -/
theorem token_after_begin (name : String) (bytes : UInt64) {between : List Operation}
    (hp : s.profilers[n]? = some p) (hr : s.bench.source.nextCounter = some r)
    (hunused : ∀ k, .finish k s.tokens.length ∉ between) :
    (s.run (.begin n name bytes :: between)).2.tokens[s.tokens.length]? =
      some (some (p.enter name bytes ⟨r⟩).2) := by
  have hedited := edited_begin_of_some name bytes hp hr
  have htoken : (s.step (.begin n name bytes)).2.tokens[s.tokens.length]? =
      some (some (p.enter name bytes ⟨r⟩).2) := by
    rw [show (s.step (.begin n name bytes)).2.tokens = _ from congrArg Prod.snd hedited]
    exact List.getElem?_concat_length
  exact getElem?_tokens_run (s := (s.step (.begin n name bytes)).2) htoken hunused

end Ends

/-- A token is begun under a name and ends, later, on a profiler that has no section of this name. The end
answers the elapsed ticks. The sections and the total stay as they were if and only if the profiler has
no more sections than there were before the name in the profiler of the begin. Otherwise the section at
that place, which has another name, gets the pass, and nothing is reported. -/
theorem finish_foreign_token (source : Source) (before between : List Operation) (m n : Nat)
    (name : String) (bytes start stop : UInt64) (q p : Profiler) :
    let earlier := ((ofSource source).run before).2
    let number := earlier.tokens.length
    let operations := before ++ .begin m name bytes :: between
    let s := ((ofSource source).run operations).2
    let ended := s.step (.finish n number)
    let elapsed := Stamp.since ⟨stop⟩ ⟨start⟩
    let place := (q.sections.map (·.name)).idxOf name
    earlier.profilers[m]? = some q → earlier.bench.source.nextCounter = some start →
    s.profilers[n]? = some p → s.bench.source.nextCounter = some stop →
    (∀ k, .finish k number ∉ between) → name ∉ p.sections.map (·.name) →
      (earlier.step (.begin m name bytes)).1.answer = .ok (.number number) ∧
      ended.1.answer = .ok (.word elapsed.count) ∧
      (∀ k ≠ n, ended.2.profilers[k]? = s.profilers[k]?) ∧
      (∃ p', ended.2.profilers[n]? = some p' ∧
        (p'.sections = p.sections ∧ p'.total = p.total ↔ p.sections.length ≤ place) ∧
        (p.sections.length ≤ place → p' = p ∧ ended.1.records = [Profiler.foreignToken]) ∧
        ∀ x, p.sections[place]? = some x →
          x.name ≠ name ∧
          p'.sections = p.sections.set place
            ⟨x.name, x.ticks + elapsed, x.hits + 1, Word.add x.bytes bytes⟩ ∧
          p'.first = p.first ∧ p'.last = some (Profiler.laterOf p.last ⟨stop⟩) ∧
          ended.1.records = []) ∧
      ∃ h g, ((ofSource source).histories [] before)[m]? = some h ∧
        ((ofSource source).histories [] operations)[n]? = some g ∧
        place = h.names.idxOf name ∧ p.sections.map (·.name) = g.names := by
  intro earlier number operations s ended elapsed place hq hstart hp hstop hunused hname
  let t := (q.enter name bytes ⟨start⟩).2
  have hplace : t.index = place := q.index_enter name bytes ⟨start⟩
  have ht : s.tokens[number]? = some (some t) := by
    rw [show s = _ from run_append (ofSource source) before _]
    exact token_after_begin name bytes hq hstart hunused
  obtain ⟨hanswer, hedited⟩ := step_finish_of_some ht hp hstop
  have hrecords : ended.1.records = _ := records_finish ht hp hstop
  have hprofilers : ended.2.profilers = s.profilers.set n (p.leave t ⟨stop⟩).1 :=
    congrArg Prod.fst hedited
  have hinit : Named (ofSource source).profilers [] := rfl
  obtain ⟨h, hh, hqnames⟩ := (hinit.run before).exists_history hq
  obtain ⟨g, hg, hpnames⟩ := (hinit.run operations).exists_history hp
  refine ⟨(step_begin_of_some name bytes hq hstart).1, ?_, ?_,
    ⟨(p.leave t ⟨stop⟩).1, ?_, ?_, ?_, ?_⟩, h, g, hh, hg, congrArg (List.idxOf name) hqnames, hpnames⟩
  · rw [show ended.1.answer = _ from hanswer, Profiler.leave_snd]
    rfl
  · intro k hk
    rw [hprofilers, List.getElem?_set_ne hk.symm]
  · obtain ⟨hlt, -⟩ := List.getElem?_eq_some_iff.1 hp
    rw [hprofilers, List.getElem?_set_self hlt]
  · rw [← hplace]
    exact Profiler.leave_unchanged_iff ⟨stop⟩
  · intro hle
    rw [← hplace] at hle
    rw [hrecords, Profiler.owns_eq_false hle, Profiler.leave_of_le hle]
    exact ⟨rfl, rfl⟩
  · intro x hx
    have hother : x.name ≠ name := by
      rintro rfl
      exact hname (List.mem_map_of_mem (List.mem_of_getElem? hx))
    rw [← hplace] at hx ⊢
    rw [hrecords, Profiler.owns_eq_true hx, Profiler.leave_of_some hx]
    exact ⟨hother, rfl, rfl, rfl, rfl⟩

/-- The same token, for the second section of one profiler, on a profiler with two other sections and on
one with a single other section. -/
theorem finish_foreign_token_second_place :
    let start : Session := ofSource (.clock (.ofRates 1000 1000000000))
    let before : List Operation :=
      [.newProfiler 0, .newProfiler 0, .begin 0 "load" 1, .begin 1 "sum" 2, .advance 100]
    let long := (start.run (before ++ .begin 0 "parse" 7 :: [.advance 500, .begin 1 "sort" 0])).2
    let short := (start.run (before ++ .begin 0 "parse" 7 :: [.advance 500])).2
    ((long.step (.finish 1 2)).1.answer = .ok (.word 500) ∧ (long.step (.finish 1 2)).1.records = [] ∧
      ∃ p', (long.step (.finish 1 2)).2.profilers[1]? = some p' ∧
        p'.sections = [⟨"sum", ⟨0⟩, 0, 0⟩, ⟨"sort", ⟨500⟩, 1, 7⟩] ∧ p'.last = some ⟨600⟩) ∧
    (short.step (.finish 1 2)).1.answer = .ok (.word 500) ∧
      (short.step (.finish 1 2)).1.records = [Profiler.foreignToken] ∧
      (short.step (.finish 1 2)).2.profilers[1]? =
        some ⟨0, [⟨"sum", ⟨0⟩, 0, 0⟩], some ⟨0⟩, none⟩ := by
  intro start before long short
  let q : Profiler := ⟨0, [⟨"load", ⟨0⟩, 0, 0⟩], some ⟨0⟩, none⟩
  let few : Profiler := ⟨0, [⟨"sum", ⟨0⟩, 0, 0⟩], some ⟨0⟩, none⟩
  let many : Profiler := ⟨0, [⟨"sum", ⟨0⟩, 0, 0⟩, ⟨"sort", ⟨0⟩, 0, 0⟩], some ⟨0⟩, none⟩
  constructor
  · obtain ⟨-, hanswer, -, ⟨p', hp', -, -, hplace⟩, -⟩ :=
      finish_foreign_token (.clock (.ofRates 1000 1000000000)) before [.advance 500, .begin 1 "sort" 0]
        0 1 "parse" 7 100 600 q many (by decide +kernel) (by decide +kernel) (by decide +kernel)
        (by decide +kernel) (by simp) (by decide)
    obtain ⟨-, hsections, -, hlast, hrecords⟩ := hplace ⟨"sort", ⟨0⟩, 0, 0⟩ (by decide)
    exact ⟨hanswer, hrecords, p', hp', hsections, hlast⟩
  · obtain ⟨-, hanswer, -, ⟨p', hp', -, hignored, -⟩, -⟩ :=
      finish_foreign_token (.clock (.ofRates 1000 1000000000)) before [.advance 500]
        0 1 "parse" 7 100 600 q few (by decide +kernel) (by decide +kernel) (by decide +kernel)
        (by decide +kernel) (by simp) (by decide)
    obtain ⟨rfl, hrecords⟩ := hignored (by decide)
    exact ⟨hanswer, hrecords, hp'⟩

/-- A token begun as "a" on one profiler ends on another, which has no section "a": the end goes to its
section "b" and into its total. -/
theorem foreign_end_recorded :
    let s := ((ofSource (.clock (.ofRates 1000 1000000000))).run [.newProfiler 1000000000,
      .newProfiler 1000000000, .begin 0 "a" 0, .begin 1 "b" 0, .advance 500]).2
    ∃ p p' : Profiler, s.profilers[1]? = some p ∧ "a" ∉ p.sections.map (·.name) ∧
      (s.step (.finish 1 0)).2.profilers[1]? = some p' ∧
      p'.sections ≠ p.sections ∧ p'.total ≠ p.total := by
  intro s
  let p : Profiler := ⟨1000000000, [⟨"b", ⟨0⟩, 0, 0⟩], some ⟨0⟩, none⟩
  let p' : Profiler := ⟨1000000000, [⟨"b", ⟨500⟩, 1, 0⟩], some ⟨0⟩, some ⟨500⟩⟩
  exact ⟨p, p', by decide +kernel, by decide, by decide +kernel, by decide, by decide⟩

end Session

end Chronometry
