import Chronometry.Proofs.History
import Chronometry.Proofs.SessionStep

/-! Every profiler of a session remembers its history, whatever the readings are, in whichever order
sections end, and however profilers are copied. -/
namespace Chronometry

namespace History

def begin? (h : History) (number : Nat) : Option (String × UInt64) := h.findSome? fun
  | .begun (some token) name bytes _ => if token = number then some (name, bytes) else none
  | _ => none

/-- Tokens begun in a history stand for the places of their names, as long as they are not used. -/
def Tracks (h : History) (tokens : List (Option Token)) : Prop :=
  ∀ number name bytes reading, .begun (some number) name bytes reading ∈ h →
    number < tokens.length ∧
      ∀ t, tokens[number]? = some (some t) → t.index = h.names.idxOf name ∧ t.bytes = bytes

variable {h : History} {tokens : List (Option Token)} {number : Nat} {name : String} {bytes : UInt64}

theorem mem_names_of_begun {token : Option Nat} {reading : Option UInt64}
    (hmem : .begun token name bytes reading ∈ h) : name ∈ h.names := by
  rw [names, List.mem_eraseDups, begins, List.mem_filterMap]
  exact ⟨_, hmem, rfl⟩

theorem idxOf_names_begun {x : String} (hx : x ∈ h.names) (token : Option Nat) (name : String)
    (bytes : UInt64) (reading : Option UInt64) :
    (names (h ++ [.begun token name bytes reading])).idxOf x = h.names.idxOf x := by
  rw [names_begun]
  split
  · rfl
  · rw [List.idxOf_append, if_pos hx]

theorem begun_of_begin? (hb : h.begin? number = some (name, bytes)) :
    ∃ reading, .begun (some number) name bytes reading ∈ h := by
  obtain ⟨e, he, hf⟩ := List.exists_of_findSome?_eq_some hb
  split at hf
  · split at hf
    · rename_i token x b reading heq
      cases hf
      rw [← heq]
      exact ⟨reading, he⟩
    · cases hf
  · cases hf

namespace Tracks

theorem append_token (ht : h.Tracks tokens) (place : Option Token) : h.Tracks (tokens ++ [place]) := by
  intro number name bytes reading hmem
  obtain ⟨hlt, hplace⟩ := ht number name bytes reading hmem
  refine ⟨by rw [List.length_append]; omega, fun t h => hplace t ?_⟩
  rwa [List.getElem?_append_left hlt] at h

theorem use_token (ht : h.Tracks tokens) (used : Nat) : h.Tracks (tokens.set used none) := by
  intro number name bytes reading hmem
  obtain ⟨hlt, hplace⟩ := ht number name bytes reading hmem
  refine ⟨by rwa [List.length_set], fun t h => hplace t ?_⟩
  rw [List.getElem?_set] at h
  split at h
  · split at h <;> cases h
  · exact h

theorem ended (ht : h.Tracks tokens) (name : String) (bytes ticks reading : UInt64) :
    History.Tracks (h ++ [.ended name bytes ticks reading]) tokens := by
  intro number x b r hmem
  rw [names_ended]
  apply ht number x b r
  rw [List.mem_append, List.mem_singleton] at hmem
  rcases hmem with hmem | hmem
  · exact hmem
  · cases hmem

theorem begun_without_token (ht : h.Tracks tokens) (name : String) (bytes : UInt64)
    (reading : Option UInt64) : History.Tracks (h ++ [.begun none name bytes reading]) tokens := by
  intro number x b r hmem
  rw [List.mem_append, List.mem_singleton] at hmem
  rcases hmem with hmem | hmem
  · rw [idxOf_names_begun (mem_names_of_begun hmem)]
    exact ht number x b r hmem
  · cases hmem

theorem begun (ht : h.Tracks tokens) {t : Token} {reading : Option UInt64}
    (hindex : t.index = (names (h ++ [.begun (some tokens.length) name bytes reading])).idxOf name)
    (hbytes : t.bytes = bytes) :
    History.Tracks (h ++ [.begun (some tokens.length) name bytes reading]) (tokens ++ [some t]) := by
  intro number x b r hmem
  rw [List.mem_append, List.mem_singleton] at hmem
  rcases hmem with hmem | hmem
  · rw [idxOf_names_begun (mem_names_of_begun hmem)]
    exact ht.append_token (some t) number x b r hmem
  · cases hmem
    refine ⟨by simp, fun t' h => ?_⟩
    rw [List.getElem?_concat_length] at h
    cases h
    exact ⟨hindex, hbytes⟩

end Tracks

end History

namespace Session

def begunEvents (s : Session) (name : String) (bytes : UInt64) : History :=
  match s.bench.source.nextCounter with
  | none => [.begun none name bytes none]
  | some r => [.begun (some s.tokens.length) name bytes (some r)]

/-- What an end adds to the history `h` of its profiler. The ticks are those that the end answers, the
name and the bytes those of the begin of its token. -/
def endedEvents (s : Session) (n number : Nat) (h : History) : History :=
  match (s.step (.finish n number)).1.answer, s.bench.source.nextCounter, h.begin? number with
  | .ok (.word ticks), some r, some (name, bytes) => [.ended name bytes ticks r]
  | _, _, _ => []

def timedEvents (s : Session) (name : String) (ns : UInt64) : History :=
  match s.bench.source.nextCounter with
  | none => [.begun none name 0 none]
  | some r =>
    match (s.bench.source.afterCounter.advance ns).nextCounter with
    | none => [.begun none name 0 (some r)]
    | some r' => [.begun none name 0 (some r), .ended name 0 (Stamp.since ⟨r'⟩ ⟨r⟩).count r']

/-- The histories of all profilers, in the order of their numbers, after one more operation. A copy
goes on from the history of its original. -/
def historiesAfter (s : Session) (hs : List History) : Operation → List History
  | .newProfiler _ => hs ++ [[]]
  | .copyProfiler n => hs ++ hs[n]?.toList
  | .begin n name bytes => hs.modify n (· ++ s.begunEvents name bytes)
  | .finish n number => hs.modify n fun h => h ++ s.endedEvents n number h
  | .time n name ns => hs.modify n (· ++ s.timedEvents name ns)
  | _ => hs

def histories (s : Session) (hs : List History) : List Operation → List History
  | [] => hs
  | operation :: rest => (s.step operation).2.histories (s.historiesAfter hs operation) rest

/-- An end stays at home if its token was begun in the history of its profiler: by the profiler itself,
or by an original before the copy was made. -/
def Operation.atHome (hs : List History) : Operation → Bool
  | .finish n number => hs[n]?.any fun h => (h.begin? number).isSome
  | _ => true

def endsAtHome (s : Session) (hs : List History) : List Operation → Bool
  | [] => true
  | operation :: rest =>
    operation.atHome hs && (s.step operation).2.endsAtHome (s.historiesAfter hs operation) rest

/-- Profilers and tokens that agree with the histories. -/
structure Follows (state : List Profiler × List (Option Token)) (hs : List History) : Prop where
  length : state.1.length = hs.length
  records : ∀ {n : Nat} {p : Profiler} {h : History},
    state.1[n]? = some p → hs[n]? = some h → p.Records h
  tracks : ∀ {n : Nat} {h : History}, hs[n]? = some h → h.Tracks state.2

namespace Follows
variable {profilers : List Profiler} {tokens tokens' : List (Option Token)} {hs : List History}
variable {n : Nat} {p q : Profiler} {h : History}

theorem exists_history (hf : Follows (profilers, tokens) hs) (hp : profilers[n]? = some p) :
    ∃ h, hs[n]? = some h := by
  obtain ⟨hn, -⟩ := List.getElem?_eq_some_iff.1 hp
  have hlen : profilers.length = hs.length := hf.length
  exact ⟨hs[n], List.getElem?_eq_getElem (by omega)⟩

theorem modify_of_unknown (hf : Follows (profilers, tokens) hs) (hp : profilers[n]? = none)
    (f : History → History) : hs.modify n f = hs := by
  have hlen : profilers.length = hs.length := hf.length
  rw [List.getElem?_eq_none_iff] at hp
  exact List.modify_eq_self (by omega)

theorem update (hf : Follows (profilers, tokens) hs) (hh : hs[n]? = some h) {f : History → History}
    (hrec : q.Records (f h)) (hself : (f h).Tracks tokens')
    (hothers : ∀ {g : History}, g.Tracks tokens → g.Tracks tokens') :
    Follows (profilers.set n q, tokens') (hs.modify n f) := by
  constructor
  · rw [List.length_set, List.length_modify]
    exact hf.length
  · intro m p g hp hg
    by_cases hm : n = m
    · subst hm
      rw [List.getElem?_modify_eq, hh] at hg
      cases hg
      obtain ⟨_, hq⟩ := List.getElem?_eq_some_iff.1 hp
      rw [List.getElem_set_self] at hq
      exact hq ▸ hrec
    · rw [List.getElem?_modify_ne f hs hm] at hg
      rw [List.getElem?_set_ne hm] at hp
      exact hf.records hp hg
  · intro m g hg
    by_cases hm : n = m
    · subst hm
      rw [List.getElem?_modify_eq, hh] at hg
      cases hg
      exact hself
    · rw [List.getElem?_modify_ne f hs hm] at hg
      exact hothers (hf.tracks hg)

theorem append (hf : Follows (profilers, tokens) hs) (hrec : q.Records h) (htracks : h.Tracks tokens) :
    Follows (profilers ++ [q], tokens) (hs ++ [h]) := by
  have hlen : profilers.length = hs.length := hf.length
  constructor
  · simpa using hlen
  · intro m p g hp hg
    rw [List.getElem?_append] at hp hg
    split at hp
    · rw [if_pos (by omega)] at hg
      exact hf.records hp hg
    · rw [if_neg (by omega), ← hlen] at hg
      rw [List.getElem?_singleton] at hp hg
      split at hp
      · cases hp
        rw [if_pos (by assumption)] at hg
        cases hg
        exact hrec
      · cases hp
  · intro m g hg
    rw [List.getElem?_append] at hg
    split at hg
    · exact hf.tracks hg
    · rw [List.getElem?_singleton] at hg
      split at hg
      · cases hg
        exact htracks
      · cases hg

theorem use_token (hf : Follows (profilers, tokens) hs) (used : Nat) :
    Follows (profilers, tokens.set used none) hs :=
  ⟨hf.length, hf.records, fun hg => (hf.tracks hg).use_token used⟩

end Follows

section Steps
variable {s : Session} {hs : List History}

theorem Follows.step_copyProfiler (hf : Follows (s.profilers, s.tokens) hs) (n : Nat) :
    Follows (s.edited (.copyProfiler n)) (s.historiesAfter hs (.copyProfiler n)) := by
  rw [edited_copyProfiler, historiesAfter]
  cases hp : s.profilers[n]? with
  | none =>
    have hlen : s.profilers.length = hs.length := hf.length
    rw [List.getElem?_eq_none_iff] at hp
    rw [List.getElem?_eq_none (by omega)]
    simpa using hf
  | some p =>
    obtain ⟨h, hh⟩ := hf.exists_history hp
    rw [hh]
    exact hf.append (hf.records hp hh) (hf.tracks hh)

theorem Follows.step_begin (hf : Follows (s.profilers, s.tokens) hs) (n : Nat) (name : String)
    (bytes : UInt64) :
    Follows (s.edited (.begin n name bytes)) (s.historiesAfter hs (.begin n name bytes)) := by
  rw [historiesAfter]
  cases hp : s.profilers[n]? with
  | none =>
    rw [edited_begin_of_unknown name bytes hp, hf.modify_of_unknown hp]
    exact hf
  | some p =>
    obtain ⟨h, hh⟩ := hf.exists_history hp
    have hrec := hf.records hp hh
    have htracks := hf.tracks hh
    cases hr : s.bench.source.nextCounter with
    | none =>
      rw [edited_begin_of_none name bytes hp hr, begunEvents, hr]
      exact hf.update hh (hrec.declare name bytes) (htracks.begun_without_token name bytes none) id
    | some r =>
      rw [edited_begin_of_some name bytes hp hr, begunEvents, hr]
      refine hf.update hh (hrec.enter _ name bytes r) ?_ fun hg => hg.append_token _
      have htoken := hrec.token_enter (some s.tokens.length) name bytes r
      exact htracks.begun (by rw [htoken]) rfl

theorem Follows.step_finish (hf : Follows (s.profilers, s.tokens) hs) {n number : Nat}
    (hhome : (Operation.finish n number).atHome hs) :
    Follows (s.edited (.finish n number)) (s.historiesAfter hs (.finish n number)) := by
  rw [Operation.atHome, Option.any_eq_true] at hhome
  obtain ⟨h, hh, hhome⟩ := hhome
  obtain ⟨⟨name, bytes⟩, hbegin⟩ := Option.isSome_iff_exists.1 hhome
  rw [historiesAfter]
  by_cases hok : ∃ t p r, s.tokens[number]? = some (some t) ∧ s.profilers[n]? = some p ∧
      s.bench.source.nextCounter = some r
  · obtain ⟨t, p, r, ht, hp, hr⟩ := hok
    obtain ⟨hanswer, hedited⟩ := step_finish_of_some ht hp hr
    obtain ⟨reading, hmem⟩ := History.begun_of_begin? hbegin
    obtain ⟨hindex, hbytes⟩ := (hf.tracks hh number name bytes reading hmem).2 t ht
    have hevents : s.endedEvents n number h = [.ended name t.bytes (p.leave t ⟨r⟩).2.count r] := by
      rw [endedEvents, hanswer, hr, hbegin, hbytes]
    rw [hedited]
    refine hf.update hh ?_ ?_ fun hg => hg.use_token number
    · rw [hevents]
      exact (hf.records hp hh).leave (History.mem_names_of_begun hmem) hindex r
    · rw [hevents]
      exact ((hf.tracks hh).use_token number).ended name t.bytes _ r
  · obtain ⟨⟨e, hanswer⟩, hedited⟩ := step_finish_of_failure hok
    have hevents : s.endedEvents n number = fun _ => [] := by
      funext g
      rw [endedEvents, hanswer]
    simp only [hevents, List.append_nil]
    rw [show hs.modify n (fun h => h) = hs from List.modify_id n hs]
    rcases hedited with hedited | hedited
    · rw [hedited]
      exact hf
    · rw [hedited]
      exact hf.use_token number

theorem Follows.step_time (hf : Follows (s.profilers, s.tokens) hs) (n : Nat) (name : String)
    (ns : UInt64) :
    Follows (s.edited (.time n name ns)) (s.historiesAfter hs (.time n name ns)) := by
  rw [historiesAfter]
  cases hp : s.profilers[n]? with
  | none =>
    rw [edited_time_of_unknown name ns hp, hf.modify_of_unknown hp]
    exact hf
  | some p =>
    obtain ⟨h, hh⟩ := hf.exists_history hp
    have hrec := hf.records hp hh
    have htracks := hf.tracks hh
    cases hr : s.bench.source.nextCounter with
    | none =>
      rw [edited_time_of_none name ns hp hr, timedEvents, hr]
      exact hf.update hh (hrec.declare name 0) (htracks.begun_without_token name 0 none) id
    | some r =>
      have hentered := hrec.enter none name 0 r
      have hbegun := htracks.begun_without_token name 0 (some r)
      cases hr' : (s.bench.source.afterCounter.advance ns).nextCounter with
      | none =>
        rw [edited_time_of_some name ns hp hr, timedEvents, hr, hr']
        exact hf.update hh hentered hbegun id
      | some r' =>
        rw [edited_time_of_some name ns hp hr, timedEvents, hr, hr']
        have hmem : name ∈ History.names (h ++ [.begun none name 0 (some r)]) :=
          History.mem_names_of_begun (List.mem_append_right h (List.mem_singleton.2 rfl))
        have hindex := congrArg Token.index (hrec.token_enter none name 0 r)
        have hleft := hentered.leave hmem hindex r'
        have hended := hbegun.ended name 0 (Stamp.since ⟨r'⟩ ⟨r⟩).count r'
        rw [List.append_assoc] at hleft hended
        rw [Profiler.leave_snd] at hleft
        exact hf.update hh hleft hended id

theorem Follows.step (hf : Follows (s.profilers, s.tokens) hs) {operation : Operation}
    (hhome : operation.atHome hs) :
    Follows (s.edited operation) (s.historiesAfter hs operation) := by
  cases operation with
  | newProfiler frequency => 
    rw [edited_newProfiler]
    exact hf.append (.new frequency) fun _ _ _ _ hmem => absurd hmem List.not_mem_nil
  | copyProfiler n => exact hf.step_copyProfiler n
  | begin n name bytes => exact hf.step_begin n name bytes
  | finish n number => exact hf.step_finish hhome
  | time n name ns => exact hf.step_time n name ns
  | _ => 
    rw [edited_of_frames rfl]
    exact hf

theorem Follows.run {operations : List Operation} (hf : Follows (s.profilers, s.tokens) hs)
    (hhome : s.endsAtHome hs operations) :
    Follows ((s.run operations).2.profilers, (s.run operations).2.tokens)
      (s.histories hs operations) := by
  induction operations generalizing s hs with
  | nil => exact hf
  | cons operation rest ih =>
    rw [endsAtHome, Bool.and_eq_true] at hhome
    exact ih (hf.step hhome.1) hhome.2

end Steps

section Ends

def Operation.isEnd : Operation → Bool
  | .finish .. | .time .. => true
  | _ => false

variable {s : Session} {hs : List History}

theorem endReadings_begunEvents (name : String) (bytes : UInt64) :
    (s.begunEvents name bytes).endReadings = [] := by
  unfold begunEvents
  split
  · rfl
  · rfl

theorem length_endReadings_endedEvents (n number : Nat) (h : History) :
    (s.endedEvents n number h).endReadings.length ≤ 1 := by
  unfold endedEvents
  split
  · exact Nat.le_refl 1
  · exact Nat.zero_le 1

theorem length_endReadings_timedEvents (name : String) (ns : UInt64) :
    (s.timedEvents name ns).endReadings.length ≤ 1 := by
  unfold timedEvents
  split
  · exact Nat.zero_le 1
  · split
    · exact Nat.zero_le 1
    · exact Nat.le_refl 1

theorem exists_of_mem_modify {n k : Nat} {events : History → History} {g : History}
    (hg : g ∈ hs.modify n fun h => h ++ events h) (hk : ∀ h, (events h).endReadings.length ≤ k) :
    ∃ h ∈ [] :: hs, ∃ added : History, g = h ++ added ∧ added.endReadings.length ≤ k := by
  obtain ⟨j, hj⟩ := List.mem_iff_getElem?.1 hg
  rw [List.getElem?_modify] at hj
  obtain ⟨h, hh, hg⟩ := Option.map_eq_some_iff.1 hj
  have hmem : h ∈ [] :: hs := List.mem_cons_of_mem _ (List.mem_of_getElem? hh)
  split at hg
  · exact ⟨h, hmem, events h, hg.symm, hk h⟩
  · exact ⟨h, hmem, [], by rw [List.append_nil, hg], Nat.zero_le k⟩

theorem exists_of_mem_historiesAfter {operation : Operation} {g : History}
    (hg : g ∈ s.historiesAfter hs operation) :
    ∃ h ∈ [] :: hs, ∃ added : History, g = h ++ added ∧
      added.endReadings.length ≤ if operation.isEnd then 1 else 0 := by
  have hsame : g ∈ [] :: hs → ∃ h ∈ [] :: hs, ∃ added : History, g = h ++ added ∧
      added.endReadings.length ≤ if operation.isEnd then 1 else 0 :=
    fun hmem => ⟨g, hmem, [], (List.append_nil g).symm, Nat.zero_le _⟩
  cases operation with
  | newProfiler frequency =>
    rw [historiesAfter, List.mem_append, List.mem_singleton] at hg
    rcases hg with hg | hg
    · exact hsame (List.mem_cons_of_mem _ hg)
    · exact hsame (List.mem_cons.2 (.inl hg))
  | copyProfiler n =>
    rw [historiesAfter, List.mem_append, Option.mem_toList] at hg
    rcases hg with hg | hg
    · exact hsame (List.mem_cons_of_mem _ hg)
    · exact hsame (List.mem_cons_of_mem _ (List.mem_of_getElem? hg))
  | begin n name bytes =>
    apply exists_of_mem_modify hg
    intro h
    rw [endReadings_begunEvents]
    exact Nat.zero_le 0
  | finish n number => exact exists_of_mem_modify hg (length_endReadings_endedEvents n number)
  | time n name ns => exact exists_of_mem_modify hg fun _ => length_endReadings_timedEvents name ns
  | _ => exact hsame (List.mem_cons_of_mem _ hg)

theorem length_endReadings_histories {operations : List Operation} {k : Nat}
    (hk : ∀ h ∈ hs, h.endReadings.length ≤ k) :
    ∀ h ∈ s.histories hs operations, h.endReadings.length ≤ k + operations.countP Operation.isEnd := by
  induction operations generalizing s hs k with
  | nil => exact hk
  | cons operation rest ih =>
    intro h hh
    have hstep : ∀ g ∈ s.historiesAfter hs operation,
        g.endReadings.length ≤ k + if operation.isEnd then 1 else 0 := by
      intro g hg
      obtain ⟨g₀, hmem, events, rfl, hevents⟩ := exists_of_mem_historiesAfter hg
      have hold : (History.endReadings g₀).length ≤ k := by
        rcases List.mem_cons.1 hmem with rfl | hmem
        · exact Nat.zero_le k
        · exact hk g₀ hmem
      rw [History.endReadings, List.filterMap_append, List.length_append]
      unfold History.endReadings at hold hevents
      omega
    have := ih hstep h hh
    rw [List.countP_cons]
    omega

end Ends

/-- Whatever the source reads, in whichever order sections end and however profilers are copied: the
sections of a profiler are the names of its history in the order of their first begins, their counts
and sums are those of its ends, and its total runs from the first begin to the greatest reading of an
end. Every beginning of a run is a run. -/
theorem run_bookkeeping (source : Source) (operations : List Operation)
    (hends : operations.countP Operation.isEnd < 2 ^ 64)
    (hhome : (ofSource source).endsAtHome [] operations) :
    let profilers := ((ofSource source).run operations).2.profilers
    let hs := (ofSource source).histories [] operations
    profilers.length = hs.length ∧
      ∀ (n : Nat) (p : Profiler) (h : History), profilers[n]? = some p → hs[n]? = some h →
        ((p.sections.map (·.name)).Nodup ∧
          (∀ name, name ∈ p.sections.map (·.name) ↔ name ∈ h.begins) ∧
          (p.sections.map (·.name)).Pairwise fun x y => h.begins.idxOf x < h.begins.idxOf y) ∧
        (∀ x ∈ p.sections, x.hits.toNat = (h.endsOf x.name).length ∧
          x.ticks.count.toNat = min (2 ^ 64 - 1) (h.ticksOf x.name) ∧
          x.bytes.toNat = min (2 ^ 64 - 1) (h.bytesOf x.name)) ∧
        p.total.count.toNat = match h.lastEnd?, h.firstBegin? with
          | some last, some first => last - first.toNat
          | _, _ => 0 := by
  intro profilers hs
  have hinit : Follows ((ofSource source).profilers, (ofSource source).tokens) [] :=
    ⟨rfl, (fun hp => by cases hp), (fun hh => by cases hh)⟩
  have hf : Follows (profilers, _) hs := hinit.run hhome
  refine ⟨hf.length, fun n p h hp hh => ?_⟩
  have hrec := hf.records hp hh
  have hcount : h.endReadings.length < 2 ^ 64 := by
    have := length_endReadings_histories (k := 0) (fun _ h => absurd h List.not_mem_nil) h
      (List.mem_of_getElem? hh)
    omega
  rw [hrec.map_name]
  refine ⟨⟨h.nodup_names, fun _ => List.mem_eraseDups, History.eraseDups_order h.begins⟩, ?_,
    hrec.toNat_total⟩
  intro x hx
  rw [hrec.sections] at hx
  obtain ⟨name, -, rfl⟩ := List.mem_map.1 hx
  have hlt : (h.endsOf name).length < 2 ^ 64 := Nat.lt_of_le_of_lt (h.length_endsOf_le name) hcount
  refine ⟨UInt64.toNat_ofNat_of_lt hlt, ?_, ?_⟩
  · rw [Nat.min_comm]
    exact Word.toNat_clamp _
  · rw [Nat.min_comm]
    exact Word.toNat_clamp _

/-- Two sections overlap, one of them ends on a copy made after its begin, and readings run backwards. -/
theorem run_bookkeeping_overlapping :
    let source : Source := .script ⟨1000, [], [100, 70, 90, 130, 60, 150, 80], none⟩
    let operations : List Operation := [.newProfiler 1000, .begin 0 "load" 3, .begin 0 "sum" 5,
      .copyProfiler 0, .begin 0 "late" 1, .time 1 "tail" 0, .finish 1 0, .finish 0 1]
    let copy : Profiler := ⟨1000, [⟨"load", ⟨50⟩, 1, 3⟩, ⟨"sum", ⟨0⟩, 0, 0⟩, ⟨"tail", ⟨0⟩, 1, 0⟩],
      some ⟨100⟩, some ⟨150⟩⟩
    let history : History := [.begun (some 0) "load" 3 (some 100), .begun (some 1) "sum" 5 (some 70),
      .begun none "tail" 0 (some 130), .ended "tail" 0 0 60, .ended "load" 3 50 150]
    operations.countP Operation.isEnd < 2 ^ 64 ∧
      (ofSource source).endsAtHome [] operations = true ∧
      ((ofSource source).run operations).2.profilers[1]? = some copy ∧
      ((ofSource source).histories [] operations)[1]? = some history ∧
      (copy.sections.map (·.name)).Pairwise
        (fun x y => history.begins.idxOf x < history.begins.idxOf y) ∧
      (∀ x ∈ copy.sections, x.hits.toNat = (history.endsOf x.name).length ∧
        x.ticks.count.toNat = min (2 ^ 64 - 1) (history.ticksOf x.name) ∧
        x.bytes.toNat = min (2 ^ 64 - 1) (history.bytesOf x.name)) ∧
      copy.total.count.toNat = 150 - 100 := by
  intro source operations copy history
  have hends : operations.countP Operation.isEnd < 2 ^ 64 := by decide
  have hhome : (ofSource source).endsAtHome [] operations = true := by decide +kernel
  have hcopy : ((ofSource source).run operations).2.profilers[1]? = some copy := by decide +kernel
  have hhistory : ((ofSource source).histories [] operations)[1]? = some history := by decide +kernel
  obtain ⟨-, hall⟩ := run_bookkeeping source operations hends hhome
  obtain ⟨⟨-, -, horder⟩, hsections, htotal⟩ := hall 1 copy history hcopy hhistory
  exact ⟨hends, hhome, hcopy, hhistory, horder, hsections, htotal⟩

end Session

end Chronometry
