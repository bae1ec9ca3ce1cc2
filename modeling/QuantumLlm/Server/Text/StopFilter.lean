import QuantumLlm.Lib.Occurrences

/-!
# Stop sequences

The filter that ends a streamed text in front of its first stop string. It holds back what
may become a stop string, but commits to one as soon as it is complete, although one that
starts earlier may still be pending.
-/

namespace QuantumLlm.Server

open Occurrences List

abbrev Text := List Char

structure StopFilter where
  stops : List Text
  pending : Text := []
  stopped : Bool := false

/-- How much of the end of a text may still become a stop string. -/
def heldEnd (stops : List Text) (combined : Text) : Nat :=
  stops.foldl (fun held stop =>
    max held (heldBy stop combined (min (stop.length - 1) combined.length))) 0

/-- `feed`: what it returns, and the filter behind it. -/
def StopFilter.feed (filter : StopFilter) (text : Text) : Text × StopFilter :=
  if filter.stopped then ([], filter)
  else
    let combined := filter.pending ++ text
    match earliest filter.stops combined with
    | some index => (combined.take index, { filter with pending := [], stopped := true })
    | none =>
      let rest := combined.length - heldEnd filter.stops combined
      (combined.take rest, { filter with pending := combined.drop rest })

def StopFilter.finish (filter : StopFilter) : Text × StopFilter :=
  if filter.stopped then ([], filter) else (filter.pending, { filter with pending := [] })

/-- The outputs of the chunks one behind the other, and the filter behind them. -/
def StopFilter.feedAll (filter : StopFilter) : List Text → Text × StopFilter
  | [] => ([], filter)
  | chunk :: rest =>
    let fed := filter.feed chunk
    let later := fed.2.feedAll rest
    (fed.1 ++ later.1, later.2)

/-- All outputs for a text in chunks, and whether the filter has stopped. -/
def stream (stops : List Text) (chunks : List Text) : Text × Bool :=
  let fed := StopFilter.feedAll { stops } chunks
  let finished := fed.2.finish
  (fed.1 ++ finished.1, finished.2.stopped)

/-- The outputs are those for the unsplit text: it ends in front of its least stop string. -/
structure ActsOnText (stops chunks : List Text) : Prop where
  output : (stream stops chunks).1 = match earliest stops chunks.flatten with
    | some index => chunks.flatten.take index
    | none => chunks.flatten
  stopped : (stream stops chunks).2 = (earliest stops chunks.flatten).isSome
  /-- Neither do the chunks so far emit anything at the stop or behind it. -/
  hidden : ∀ count index, earliest stops chunks.flatten = some index →
    (StopFilter.feedAll { stops } (chunks.take count)).1.length ≤ index

/-- When a stop string is first complete at the end of a chunk, the chunks behind it complete none
that starts earlier. -/
def Decided (stops chunks : List Text) : Prop :=
  ∀ count index, earliest stops (chunks.take count).flatten = some index →
    (∀ fewer < count, earliest stops (chunks.take fewer).flatten = none) →
      earliest stops chunks.flatten = some index

variable {stops chunks : List Text} {text chunk : Text} {filter : StopFilter}

variable {α : Type} {f : α → Nat} {items : List α} {start index : Nat}

theorem le_foldl_max :
    start ≤ items.foldl (fun most item => max most (f item)) start ∧
      ∀ item ∈ items, f item ≤ items.foldl (fun most item => max most (f item)) start := by
  induction items generalizing start with
  | nil => exact ⟨Nat.le_refl _, nofun⟩
  | cons first rest ih =>
    obtain ⟨hstart, hall⟩ := @ih (max start (f first))
    refine ⟨Nat.le_trans (Nat.le_max_left _ _) hstart, fun item hitem => ?_⟩
    rcases mem_cons.1 hitem with rfl | hmem
    · exact Nat.le_trans (Nat.le_max_right _ _) hstart
    · exact hall item hmem

theorem foldl_max_le {bound : Nat}
    (hstart : start ≤ bound) (hall : ∀ item ∈ items, f item ≤ bound) :
    items.foldl (fun most item => max most (f item)) start ≤ bound := by
  induction items generalizing start with
  | nil => exact hstart
  | cons first rest ih =>
    exact ih (Nat.max_le.2 ⟨hstart, hall first mem_cons_self⟩)
      fun item hitem => hall item (mem_cons_of_mem _ hitem)

theorem heldEnd_le : heldEnd stops text ≤ text.length := by
  refine foldl_max_le (Nat.zero_le _) fun stop _ => ?_
  exact Nat.le_trans heldBy_le (Nat.min_le_right _ _)

theorem holds_heldEnd : Holds stops text (heldEnd stops text) := by
  intro stop hstop size hsize hends
  have hlength := hends.length_le
  rw [length_take, Nat.min_eq_left (Nat.le_of_lt hsize)] at hlength
  have hmaximum : size ≤ min (stop.length - 1) text.length := by omega
  exact Nat.le_trans (le_heldBy hmaximum hends)
    ((le_foldl_max (f := fun stop => heldBy stop text (min (stop.length - 1) text.length))).2
      stop hstop)

/-- Before it stops the filter has emitted all but what it holds back. -/
structure Running (filter : StopFilter) (text emitted : Text) : Prop where
  stopped : filter.stopped = false
  split : text = emitted ++ filter.pending
  free : ∀ index, Free filter.stops text index
  held : Holds filter.stops text filter.pending.length

theorem running_start (hstops : ∀ stop ∈ stops, stop ≠ []) :
    Running { stops } [] [] := by
  refine ⟨rfl, rfl, fun index stop hstop hoccurs => ?_, fun stop hstop size hsize hends => ?_⟩
  · cases index with
    | zero => exact hstops stop hstop (prefix_nil.1 (occurs_zero.1 hoccurs))
    | succ index => exact not_occurs_nil_succ hoccurs
  · have hlength := hends.length_le
    rw [length_take, Nat.min_eq_left (Nat.le_of_lt hsize)] at hlength
    exact hlength

section

variable (h : Running filter text emitted)

include h

theorem Running.looked (chunk : Text) :
    earliest filter.stops (text ++ chunk) =
      (earliest filter.stops (filter.pending ++ chunk)).map (emitted.length + ·) := by
  have htext : text ++ chunk = emitted ++ (filter.pending ++ chunk) := by
    rw [h.split, append_assoc]
  rw [htext]
  refine earliest_append fun index hindex => ?_
  rw [← htext]
  refine free_before_held h.free h.held ?_
  rw [h.split, length_append]
  omega

theorem Running.feed_none (hnone : earliest filter.stops (text ++ chunk) = none) :
    Running (filter.feed chunk).2 (text ++ chunk) (emitted ++ (filter.feed chunk).1) := by
  have hlooked := h.looked chunk
  rw [hnone] at hlooked
  have hmiss := Option.map_eq_none_iff.1 hlooked.symm
  unfold StopFilter.feed
  rw [h.stopped]
  simp only [Bool.false_eq_true, if_false, hmiss]
  have hle := @heldEnd_le filter.stops (filter.pending ++ chunk)
  refine ⟨rfl, ?_, earliest_none_iff.1 hnone, ?_⟩
  · rw [append_assoc, take_append_drop, h.split, append_assoc]
  · have hholds := holds_append h.split h.held (Nat.le_refl _)
      (@holds_heldEnd filter.stops (filter.pending ++ chunk))
    have hlength : ((filter.pending ++ chunk).drop ((filter.pending ++ chunk).length -
        heldEnd filter.stops (filter.pending ++ chunk))).length =
        heldEnd filter.stops (filter.pending ++ chunk) := by
      rw [length_drop]
      omega
    rw [hlength]
    exact hholds

theorem Running.feed_some (hsome : earliest filter.stops (text ++ chunk) = some index) :
    emitted ++ (filter.feed chunk).1 = (text ++ chunk).take index ∧
      (filter.feed chunk).2.stopped = true := by
  have hlooked := h.looked chunk
  rw [hsome] at hlooked
  obtain ⟨place, hplace, rfl⟩ := Option.map_eq_some_iff.1 hlooked.symm
  unfold StopFilter.feed
  rw [h.stopped]
  simp only [Bool.false_eq_true, if_false, hplace]
  refine ⟨?_, trivial⟩
  rw [h.split, append_assoc, take_length_add_append]

end

theorem feedAll_append {first second : List Text} : filter.feedAll (first ++ second) =
    ((filter.feedAll first).1 ++ ((filter.feedAll first).2.feedAll second).1,
      ((filter.feedAll first).2.feedAll second).2) := by
  induction first generalizing filter with
  | nil => rfl
  | cons chunk rest ih =>
    rw [cons_append, StopFilter.feedAll, ih, StopFilter.feedAll]
    simp only [append_assoc]

theorem feedAll_stopped (h : filter.stopped = true) : filter.feedAll chunks = ([], filter) := by
  induction chunks with
  | nil => rfl
  | cons chunk rest ih =>
    have hfeed : filter.feed chunk = ([], filter) := by
      unfold StopFilter.feed
      rw [if_pos h]
    rw [StopFilter.feedAll, hfeed, ih]
    rfl

theorem feed_stops : (filter.feed chunk).2.stops = filter.stops := by
  unfold StopFilter.feed
  split
  · rfl
  · simp only
    split
    · rfl
    · rfl

theorem feedAll_stops : (filter.feedAll chunks).2.stops = filter.stops := by
  induction chunks generalizing filter with
  | nil => rfl
  | cons chunk rest ih => exact ih.trans feed_stops

theorem running_feedAll (h : Running filter text emitted)
    (hnone : ∀ count, earliest filter.stops (text ++ (chunks.take count).flatten) = none) :
    Running (filter.feedAll chunks).2 (text ++ chunks.flatten)
      (emitted ++ (filter.feedAll chunks).1) := by
  induction chunks generalizing filter text emitted with
  | nil =>
    rw [flatten_nil, append_nil, StopFilter.feedAll, append_nil]
    exact h
  | cons chunk rest ih =>
    have hfirst := hnone 1
    rw [take_succ_cons, take_zero, flatten_cons, flatten_nil, append_nil] at hfirst
    have hnext := h.feed_none hfirst
    have hlater := ih hnext fun count => by
      have hcount := hnone (count + 1)
      rw [take_succ_cons, flatten_cons, ← append_assoc] at hcount
      rw [feed_stops]
      exact hcount
    rw [StopFilter.feedAll, flatten_cons, ← append_assoc, ← append_assoc]
    exact hlater

/-- No stop string is complete at the end of any chunk. -/
def Incomplete (stops chunks : List Text) : Prop :=
  ∀ count, earliest stops (chunks.take count).flatten = none

theorem incomplete_or_completes (hstops : ∀ stop ∈ stops, stop ≠ []) (chunks : List Text) :
    Incomplete stops chunks ∨ ∃ front chunk rest index, chunks = front ++ chunk :: rest ∧
      Incomplete stops front ∧ earliest stops (front.flatten ++ chunk) = some index := by
  induction chunks using List.reverseRecOn with
  | nil =>
    left
    intro count
    rw [take_nil]
    exact earliest_none_iff.2 (running_start hstops).free
  | append_singleton front chunk ih =>
    rcases ih with hfront | ⟨early, found, rest, index, rfl, hearly, hsome⟩
    · cases hall : earliest stops (front.flatten ++ chunk) with
      | some index => exact .inr ⟨front, chunk, [], index, rfl, hfront, hall⟩
      | none =>
        left
        intro count
        by_cases hcount : count ≤ front.length
        · rw [take_append_of_le_length hcount]
          exact hfront count
        · rw [take_of_length_le (by simp; omega), flatten_append, flatten_singleton]
          exact hall
    · exact .inr ⟨early, found, rest ++ [chunk], index, by simp, hearly, hsome⟩

theorem earliest_le (h : earliest stops text = some index) (more : Text) :
    ∃ place ≤ index, earliest stops (text ++ more) = some place := by
  obtain ⟨⟨stop, hstop, front, behind, htext, hlength⟩, -⟩ := earliest_some_iff.1 h
  have hoccurs : Occurs stop (text ++ more) index :=
    ⟨front, behind ++ more, by rw [htext, append_assoc], hlength⟩
  cases hplace : earliest stops (text ++ more) with
  | none => exact absurd hoccurs (earliest_none_iff.1 hplace index stop hstop)
  | some place =>
    refine ⟨place, ?_, rfl⟩
    by_contra hless
    exact (earliest_some_iff.1 hplace).2 index (Nat.not_le.1 hless) stop hstop hoccurs

section

variable {front rest : List Text} {index : Nat}

theorem index_le (hsome : earliest stops text = some index) : index ≤ text.length := by
  obtain ⟨⟨stop, -, before, behind, htext, rfl⟩, -⟩ := earliest_some_iff.1 hsome
  rw [htext, append_assoc, length_append]
  exact Nat.le_add_right _ _

theorem feedAll_of_completes (rest : List Text) (hstops : ∀ stop ∈ stops, stop ≠ [])
    (hfront : Incomplete stops front)
    (hsome : earliest stops (front.flatten ++ chunk) = some index) :
    (StopFilter.feedAll { stops } (front ++ chunk :: rest)).1 =
        (front ++ chunk :: rest).flatten.take index ∧
      (StopFilter.feedAll { stops } (front ++ chunk :: rest)).2.stopped = true := by
  have hrunning := running_feedAll (running_start hstops) fun count => by
    exact hfront count
  rw [nil_append, nil_append] at hrunning
  have hkept : (StopFilter.feedAll { stops } front).2.stops = stops := feedAll_stops
  obtain ⟨houtput, hstopped⟩ := hrunning.feed_some (hkept.symm ▸ hsome)
  rw [feedAll_append, StopFilter.feedAll, feedAll_stopped hstopped, append_nil, houtput,
    flatten_append, flatten_cons, ← append_assoc,
    take_append_of_le_length (index_le hsome)]
  exact ⟨rfl, hstopped⟩

theorem stream_of_completes (rest : List Text) (hstops : ∀ stop ∈ stops, stop ≠ [])
    (hfront : Incomplete stops front)
    (hsome : earliest stops (front.flatten ++ chunk) = some index) :
    stream stops (front ++ chunk :: rest) =
      ((front ++ chunk :: rest).flatten.take index, true) := by
  obtain ⟨houtput, hstopped⟩ := feedAll_of_completes rest hstops hfront hsome
  unfold stream StopFilter.finish
  simp only [hstopped, if_true, append_nil, houtput]

theorem decided_of_completes (hfront : Incomplete stops front)
    (hsome : earliest stops (front.flatten ++ chunk) = some index) :
    Decided stops (front ++ chunk :: rest) ↔
      earliest stops (front ++ chunk :: rest).flatten = some index := by
  have hthere : ((front ++ chunk :: rest).take (front.length + 1)).flatten =
      front.flatten ++ chunk := by
    rw [take_length_add_append, take_succ_cons, take_zero, flatten_append, flatten_singleton]
  have hbefore : ∀ fewer < front.length + 1,
      earliest stops ((front ++ chunk :: rest).take fewer).flatten = none := by
    intro fewer hfewer
    rw [take_append_of_le_length (Nat.le_of_lt_succ hfewer)]
    exact hfront fewer
  constructor
  · intro h
    exact h (front.length + 1) index (hthere ▸ hsome) hbefore
  · intro h count place hplace hfewer
    rcases Nat.lt_trichotomy count (front.length + 1) with hlt | heq | hgt
    · rw [hbefore count hlt] at hplace
      cases hplace
    · rw [heq, hthere, hsome] at hplace
      cases hplace
      exact h
    · have hmiss := hfewer (front.length + 1) hgt
      rw [hthere, hsome] at hmiss
      cases hmiss

end

theorem stream_of_incomplete (hstops : ∀ stop ∈ stops, stop ≠ [])
    (h : Incomplete stops chunks) : stream stops chunks = (chunks.flatten, false) := by
  have hrunning := running_feedAll (running_start hstops) fun count => by
    exact h count
  rw [nil_append, nil_append] at hrunning
  unfold stream StopFilter.finish
  simp only [hrunning.stopped, Bool.false_eq_true, if_false]
  rw [← hrunning.split]

/-- The filter acts on the text exactly when no stop string that starts earlier is still pending
where one is first complete. -/
theorem acts_on_text_iff (hstops : ∀ stop ∈ stops, stop ≠ []) :
    ActsOnText stops chunks ↔ Decided stops chunks := by
  rcases incomplete_or_completes hstops chunks with hnone | ⟨front, chunk, rest, index, rfl, hfront,
    hsome⟩
  · have hwhole : earliest stops chunks.flatten = none := by
      have hall := hnone chunks.length
      rwa [take_length] at hall
    refine iff_of_true ⟨?_, ?_, ?_⟩ ?_
    · rw [stream_of_incomplete hstops hnone, hwhole]
    · rw [stream_of_incomplete hstops hnone, hwhole]
      rfl
    · intro count place hplace
      rw [hwhole] at hplace
      cases hplace
    · intro count place hplace
      rw [hnone count] at hplace
      cases hplace
  · rw [decided_of_completes hfront hsome]
    obtain ⟨place, hplace, hleast⟩ := earliest_le hsome rest.flatten
    have hflat : (front ++ chunk :: rest).flatten = front.flatten ++ chunk ++ rest.flatten := by
      rw [flatten_append, flatten_cons, append_assoc]
    have hbound : index ≤ (front ++ chunk :: rest).flatten.length := by
      rw [hflat, length_append]
      exact Nat.le_trans (index_le hsome) (Nat.le_add_right _ _)
    have hstream := stream_of_completes rest hstops hfront hsome
    rw [← hflat] at hleast
    rw [hleast]
    constructor
    · intro h
      have houtput := h.output
      rw [hstream, hleast] at houtput
      have hlengths := congrArg List.length houtput
      rw [length_take, length_take] at hlengths
      exact congrArg some (by omega)
    · intro h
      cases h
      refine ⟨?_, ?_, fun count found hfound => ?_⟩
      · rw [hstream, hleast]
      · rw [hstream, hleast]
        rfl
      · rw [hleast] at hfound
        cases hfound
        have hfed := (feedAll_of_completes rest hstops hfront hsome).1
        rw [← take_append_drop count (front ++ chunk :: rest), feedAll_append,
          take_append_drop] at hfed
        have hlengths := congrArg List.length hfed
        rw [length_append, length_take] at hlengths
        omega

def nested : List Text := ["abcd".toList, "bc".toList]

/-- Cut behind the whole of the longer one. -/
theorem acts_on_nested : ActsOnText nested ["xa".toList, "bcd".toList] := by
  refine (acts_on_text_iff (by decide)).2 ?_
  have hfront : Incomplete nested ["xa".toList] := by
    intro count
    cases count with
    | zero => rfl
    | succ count =>
      rw [take_of_length_le (by simp)]
      rfl
  exact (@decided_of_completes nested "bcd".toList ["xa".toList] [] 1 hfront (by decide)).2 (by decide)

/-- Cut before its last letter. -/
theorem not_acts_on_nested : (stream nested ["abc".toList, "d".toList]).1 = "a".toList ∧
    earliest nested "abcd".toList = some 0 ∧ ¬ ActsOnText nested ["abc".toList, "d".toList] := by
  have hstream : (stream nested ["abc".toList, "d".toList]).1 = "a".toList := by decide
  refine ⟨hstream, by decide, fun h => ?_⟩
  have hlength := congrArg List.length (hstream.symm.trans h.output)
  exact absurd hlength (by decide)

end QuantumLlm.Server
