import QuantumLlm.Lib.History
import QuantumLlm.Lib.Tiling
import QuantumLlm.Runtime.Gather.State
import Mathlib.Algebra.BigOperators.Group.List.Basic

/-!
# Extent gather storage: runs

The invariant of one operation under every interleaving, and what it says of the
caller's completion: invoked once, last, and with a truthful result.
-/

namespace QuantumLlm.Runtime.Gather

open List Option

/-! ## Histories of an operation -/

def completion : Moment → Option (Nat × ReadResult)
  | .completed child result => some (child, result)
  | _ => none

/-- The children that completed, with their results. -/
def completions (history : List Moment) : List (Nat × ReadResult) := history.filterMap completion

def results (history : List Moment) : List ReadResult := (completions history).map Prod.snd

def call : Moment → Option ReadResult
  | .called result => some result
  | _ => none

/-- The results the caller's completion was invoked with. -/
def calls (history : List Moment) : List ReadResult := history.filterMap call

/-- The bytes the children reported, in the counter's own arithmetic. -/
def readSum (history : List Moment) : UInt64 :=
  (results history).foldr (fun result sum => sum + result.readBytes) 0

/-- The bytes the children reported, without wrapping. -/
def readTotal (history : List Moment) : Nat :=
  ((results history).map (·.readBytes.toNat)).sum

/-- What a result says, when it is fixed after `before`. -/
structure Truthful (request : ReadRequest) (before : List Moment) (result : ReadResult) : Prop where
  /-- Every child has completed, each once. -/
  complete : ((completions before).map Prod.fst).Perm (List.range request.record.extents.length)
  requested : result.requestedBytes = request.record.storedBytes
  bytes : result.readBytes = readSum before
  exact : readTotal before < 2 ^ 64 → result.readBytes.toNat = readTotal before
  ok : result.status.ok → (∀ child ∈ results before, child.status.ok) ∧ .cancelled ∉ before

/-- How an event fits what happened before it. -/
def Fits (request : ReadRequest) (before : List Moment) : Moment → Prop
  | .decided result => Truthful request before result
  | .called result => .decided result ∈ before
  | _ => True

section

variable {history : List Moment} {child : Nat} {result : ReadResult}

@[simp] theorem completions_completed : completions (history ++ [.completed child result]) =
    completions history ++ [(child, result)] := by
  simp [completions, completion]

@[simp] theorem completions_cancelled :
    completions (history ++ [.cancelled]) = completions history := by
  simp [completions, completion]

@[simp] theorem completions_decided :
    completions (history ++ [.decided result]) = completions history := by
  simp [completions, completion]

@[simp] theorem completions_called :
    completions (history ++ [.called result]) = completions history := by
  simp [completions, completion]

@[simp] theorem calls_completed :
    calls (history ++ [.completed child result]) = calls history := by
  simp [calls, call]

@[simp] theorem calls_cancelled : calls (history ++ [.cancelled]) = calls history := by
  simp [calls, call]

@[simp] theorem calls_decided : calls (history ++ [.decided result]) = calls history := by
  simp [calls, call]

@[simp] theorem calls_called :
    calls (history ++ [.called result]) = calls history ++ [result] := by
  simp [calls, call]

variable {results : List ReadResult}

theorem foldr_readSum {start : UInt64} :
    results.foldr (fun result sum => sum + result.readBytes) start =
      start + results.foldr (fun result sum => sum + result.readBytes) 0 := by
  induction results with
  | nil => simp
  | cons result rest ih => rw [foldr_cons, ih, foldr_cons, UInt64.add_assoc]

theorem readSum_completed : readSum (history ++ [.completed child result]) =
    readSum history + result.readBytes := by
  unfold readSum results
  rw [completions_completed, map_append, foldr_append, map_singleton,
    foldr_cons, foldr_nil, foldr_readSum, UInt64.zero_add, UInt64.add_comm]

theorem foldr_readSum_toNat (h : (results.map (·.readBytes.toNat)).sum < 2 ^ 64) :
    (results.foldr (fun (result : ReadResult) sum => sum + result.readBytes) (0 : UInt64)).toNat =
      (results.map (·.readBytes.toNat)).sum := by
  induction results with
  | nil => rfl
  | cons result rest ih =>
    simp only [map_cons, sum_cons] at h ⊢
    rw [foldr_cons, UInt64.toNat_add, ih (by omega), Nat.mod_eq_of_lt (by omega)]
    omega

theorem readSum_toNat (h : readTotal history < 2 ^ 64) :
    (readSum history).toNat = readTotal history := foldr_readSum_toNat h

end

/-! ## The invariant of an operation -/

namespace Flight

/-- Every child has completed and no child is still to be launched. -/
def Closed (flight : Flight) : Prop :=
  flight.pending.remaining = 0 ∧ flight.pending.launching = false

instance (flight : Flight) : Decidable flight.Closed := inferInstanceAs (Decidable (_ ∧ _))

def extents (flight : Flight) : List PayloadExtent := flight.request.record.extents

structure Sound (flight : Flight) : Prop where
  issued : flight.issued =
    (flight.extents.take flight.issued.length).map (childRequest flight.request)
  issued_le : flight.issued.length ≤ flight.extents.length
  children : (flight.running ++ (completions flight.history).map Prod.fst).Perm
    (List.range flight.issued.length)
  remaining : flight.pending.remaining + (completions flight.history).length =
    flight.extents.length
  launching : flight.pending.launching = true ↔ flight.launcher ≠ .done
  launched : flight.launcher = .done → flight.issued.length = flight.extents.length
  bytes : flight.pending.readBytes = readSum flight.history
  status : flight.pending.status.ok →
    (∀ child ∈ results flight.history, child.status.ok) ∧ .cancelled ∉ flight.history
  /-- A thread has been sent to finish exactly when everything is complete. -/
  tally : flight.finishers.length + (calls flight.history).length = if flight.Closed then 1 else 0
  finished : flight.pending.finished = true → flight.Closed
  entered : .entered ∈ flight.finishers → flight.pending.finished = false
  decided : ∀ result, .erasing result ∈ flight.finishers ∨ .calling result ∈ flight.finishers →
    .decided result ∈ flight.history
  chronicle : Chronicle (Fits flight.request) flight.history

variable {flight flight' : Flight} {move : FlightMove}

theorem start_sound (request : ReadRequest) : (start request).Sound := by
  refine ⟨by simp [start], by simp [start], by simp [start, completions], by
    simp [start, completions, extents], by simp [start], by simp [start], by simp [start, readSum,
      results, completions], by simp [start, results, completions], by
    simp [start, calls, Closed], by simp [start], by simp [start], by simp [start], Chronicle.nil⟩

theorem Sound.remaining_pos {child : Nat} (h : flight.Sound) (hchild : child ∈ flight.running) :
    0 < flight.pending.remaining := by
  have hlength := h.children.length_eq
  have hpos := length_pos_of_mem hchild
  have hremaining := h.remaining
  have hissued := h.issued_le
  simp only [length_append, length_map, length_range] at hlength
  omega

theorem Sound.callRead (h : flight.Sound) (hstep : flight.step .callRead = some flight') :
    flight'.Sound := by
  simp only [step] at hstep
  split at hstep
  next extent hlauncher hextent =>
    cases hstep
    have hlt : flight.issued.length < flight.extents.length :=
      (List.getElem?_eq_some_iff.1 hextent).1
    have hopen : flight.pending.launching = true := h.launching.2 (by simp [hlauncher])
    refine ⟨?_, ?_, ?_, h.remaining, ?_, ?_, h.bytes, h.status, ?_, ?_, h.entered, h.decided,
      h.chronicle⟩
    · have hhead : flight.extents[flight.issued.length]? = some extent := hextent
      show flight.issued ++ [childRequest flight.request extent] =
        (flight.extents.take (flight.issued ++ [childRequest flight.request extent]).length).map
          (childRequest flight.request)
      rw [List.length_append, List.length_singleton, List.take_add_one, List.map_append, ← h.issued,
        hhead]
      rfl
    · show (flight.issued ++ [_]).length ≤ flight.extents.length
      simp only [List.length_append, List.length_singleton]
      omega
    · show ((flight.running ++ [flight.issued.length]) ++ _).Perm
        (List.range (flight.issued ++ [_]).length)
      rw [List.length_append, List.length_singleton, List.range_succ, List.append_assoc]
      refine List.Perm.trans ?_ (h.children.append_right _)
      rw [List.append_assoc]
      exact List.perm_append_comm.append_left _
    · simp [hopen]
    · exact nofun
    · exact h.tally
    · exact h.finished
  next => cases hstep

variable {child : OperationId} {result : ReadResult}

theorem Sound.recordChild (h : flight.Sound)
    (hstep : flight.step (.recordChild child) = some flight') : flight'.Sound := by
  simp only [step] at hstep
  split at hstep
  next hlauncher =>
    cases hstep
    have hopen : flight.pending.launching = true := h.launching.2 (by simp [hlauncher])
    refine { h with launching := ?_, launched := ?_ }
    · simp only [hopen, true_iff]
      split <;> simp
    · intro hdone
      split at hdone <;> cases hdone
  next => cases hstep

theorem Sound.cancelChild (h : flight.Sound) (hstep : flight.step .cancelChild = some flight') :
    flight'.Sound := by
  simp only [step] at hstep
  split at hstep
  next child hlauncher =>
    cases hstep
    have hopen : flight.pending.launching = true := h.launching.2 (by simp [hlauncher])
    exact { h with launching := by simp [hopen], launched := nofun }
  next => cases hstep

theorem Sound.unfinished (h : flight.Sound) (hunclosed : ¬ flight.Closed) :
    flight.finishers = [] ∧ calls flight.history = [] ∧ flight.pending.finished = false := by
  have htally := h.tally
  rw [if_neg hunclosed] at htally
  refine ⟨length_eq_zero_iff.1 (by omega), length_eq_zero_iff.1 (by omega), ?_⟩
  by_contra hset
  exact hunclosed (h.finished (by simpa using hset))

theorem Sound.close (h : flight.Sound) (hstep : flight.step .close = some flight') :
    flight'.Sound := by
  obtain ⟨⟨hlauncher, hall⟩, hsome⟩ := ite_none_right_eq_some.1 hstep
  obtain rfl := Option.some.inj hsome
  have hopen : flight.pending.launching = true := h.launching.2 (by simp [hlauncher])
  have hunclosed : ¬ flight.Closed := by simp [Closed, hopen]
  obtain ⟨hnone, hcalls, hunfinished⟩ := h.unfinished hunclosed
  refine { h with
    launching := by simp
    launched := fun _ => Nat.le_antisymm h.issued_le hall
    tally := ?_
    finished := fun hset => absurd hset (by simp [hunfinished])
    entered := fun _ => hunfinished
    decided := fun result hresult => ?_ }
  · simp only [hnone, hcalls, nil_append, Closed, and_true]
    split <;> simp
  · simp only [hnone, nil_append] at hresult
    split at hresult <;> simp at hresult

theorem Sound.complete {child : Nat} {result : ReadResult} (h : flight.Sound)
    (hstep : flight.step (.complete child result) = some flight') : flight'.Sound := by
  obtain ⟨hchild, hsome⟩ := ite_none_right_eq_some.1 hstep
  obtain rfl := Option.some.inj hsome
  have hpos := h.remaining_pos hchild
  have hunclosed : ¬ flight.Closed := fun hclosed => by
    have hzero := hclosed.1
    omega
  obtain ⟨hnone, hcalls, hunfinished⟩ := h.unfinished hunclosed
  have hremaining : (flight.pending.absorb result).remaining = flight.pending.remaining - 1 :=
    if_pos (Nat.pos_iff_ne_zero.1 hpos)
  refine { h with
    children := ?_
    remaining := ?_
    bytes := ?_
    status := fun hok => ?_
    tally := ?_
    finished := fun hset => absurd hset (by simp [Pending.absorb, hunfinished])
    entered := fun _ => hunfinished
    decided := fun other hother => ?_
    chronicle := h.chronicle.snoc trivial }
  · show (flight.running.erase child ++ _).Perm _
    rw [completions_completed, map_append, map_singleton]
    refine List.Perm.trans ?_ h.children
    refine List.Perm.trans ?_ ((perm_cons_erase hchild).symm.append_right _)
    rw [← append_assoc, cons_append]
    exact perm_append_singleton _ _
  · show (flight.pending.absorb result).remaining + _ = flight.extents.length
    have hold := h.remaining
    rw [completions_completed, length_append, length_singleton, hremaining]
    omega
  · show flight.pending.readBytes + result.readBytes = _
    rw [readSum_completed, h.bytes]
  · simp only [Pending.absorb] at hok
    split at hok
    next hfailed =>
      simp only [Bool.and_eq_true, Bool.not_eq_true'] at hfailed
      rw [hfailed.1] at hok
      cases hok
    next hkept =>
      obtain ⟨hall, hcancelled⟩ := h.status hok
      refine ⟨fun other hother => ?_, by simpa using hcancelled⟩
      rw [results, completions_completed, map_append, map_singleton] at hother
      rcases mem_append.1 hother with hold | hnew
      · exact hall other hold
      · rw [mem_singleton.1 hnew]
        simpa [hok] using hkept
  · simp only [hnone, nil_append, calls_completed, Closed, hcalls]
    by_cases hlast : (flight.pending.absorb result).remaining = 0 ∧
        (flight.pending.absorb result).launching = false
    · simp [hlast]
    · simp [hlast]
  · simp only [hnone, nil_append] at hother
    split at hother <;> simp at hother

theorem Sound.single {finisher : Finisher} (h : flight.Sound) (hmem : finisher ∈ flight.finishers) :
    flight.finishers = [finisher] ∧ calls flight.history = [] ∧ flight.Closed := by
  have htally := h.tally
  have hpos := length_pos_of_mem hmem
  by_cases hclosed : flight.Closed
  · rw [if_pos hclosed] at htally
    obtain ⟨other, hother⟩ := length_eq_one_iff.1 (by omega : flight.finishers.length = 1)
    rw [hother] at hmem
    refine ⟨by rw [hother, mem_singleton.1 hmem], ?_, hclosed⟩
    exact length_eq_zero_iff.1 (by omega)
  · rw [if_neg hclosed] at htally
    omega

section

variable (h : flight.Sound)

include h

theorem Sound.completed_all (hclosed : flight.Closed) :
    ((completions flight.history).map Prod.fst).Perm (List.range flight.extents.length) := by
  have hall := h.remaining
  have hlength := h.children.length_eq
  have hle := h.issued_le
  rw [hclosed.1] at hall
  simp only [length_append, length_map, length_range] at hlength
  have hidle : flight.running = [] := length_eq_zero_iff.1 (by omega)
  have hissued : flight.issued.length = flight.extents.length := by omega
  have hchildren := h.children
  rwa [hidle, nil_append, hissued] at hchildren

theorem Sound.finishLock (hstep : flight.step .finishLock = some flight') :
    flight'.Sound := by
  obtain ⟨hmem, hstep⟩ := ite_none_right_eq_some.1 hstep
  obtain ⟨honly, hcalls, hclosed⟩ := h.single hmem
  rw [h.entered hmem] at hstep
  simp only [Bool.false_eq_true, if_false, Option.some.injEq, honly, erase_cons_head,
    nil_append] at hstep
  subst hstep
  have htruth : Truthful flight.request flight.history flight.result :=
    ⟨h.completed_all hclosed, rfl, h.bytes,
      fun hsmall => (congrArg UInt64.toNat h.bytes).trans (readSum_toNat hsmall), h.status⟩
  refine ⟨h.issued, h.issued_le, ?_, ?_, h.launching, h.launched, ?_, ?_, ?_, fun _ => hclosed,
    fun hentered => ?_, fun result hresult => ?_, h.chronicle.snoc htruth⟩
  · simpa using h.children
  · simpa [extents] using h.remaining
  · simpa [readSum, results] using h.bytes
  · intro hok
    obtain ⟨hall, hcancelled⟩ := h.status hok
    exact ⟨by simpa [results] using hall, by simpa using hcancelled⟩
  · have htally := h.tally
    rw [if_pos hclosed, honly] at htally
    show [Finisher.erasing flight.result].length + (calls (_ ++ [_])).length =
      if flight.Closed then 1 else 0
    rw [if_pos hclosed, calls_decided]
    exact htally
  · simp at hentered
  · simp only [mem_singleton, Finisher.erasing.injEq, reduceCtorEq, or_false] at hresult
    rw [hresult]
    exact mem_append_right _ mem_cons_self

theorem Sound.finishErase
    (hstep : flight.step (.finishErase result) = some flight') : flight'.Sound := by
  obtain ⟨hmem, hsome⟩ := ite_none_right_eq_some.1 hstep
  obtain rfl := Option.some.inj hsome
  obtain ⟨honly, hcalls, hclosed⟩ := h.single hmem
  have hdecided := h.decided result (Or.inl hmem)
  have htally := h.tally
  refine { h with tally := ?_, entered := fun hentered => ?_, decided := fun other hother => ?_ }
  · rw [honly] at htally ⊢
    rw [erase_cons_head]
    exact htally
  · simp [honly] at hentered
  · simp only [honly, erase_cons_head, nil_append, mem_singleton, reduceCtorEq,
      Finisher.calling.injEq, false_or] at hother
    rw [hother]
    exact hdecided

theorem Sound.finishCall
    (hstep : flight.step (.finishCall result) = some flight') : flight'.Sound := by
  obtain ⟨hmem, hsome⟩ := ite_none_right_eq_some.1 hstep
  obtain rfl := Option.some.inj hsome
  obtain ⟨honly, hcalls, hclosed⟩ := h.single hmem
  have hdecided := h.decided result (Or.inr hmem)
  refine ⟨h.issued, h.issued_le, ?_, ?_, h.launching, h.launched, ?_, fun hok => ?_, ?_, h.finished,
    fun hentered => ?_, fun other hother => ?_, h.chronicle.snoc hdecided⟩
  · simpa using h.children
  · simpa [extents] using h.remaining
  · simpa [readSum, results] using h.bytes
  · obtain ⟨hall, hcancelled⟩ := h.status hok
    exact ⟨by simpa [results] using hall, by simpa using hcancelled⟩
  · show (flight.finishers.erase (.calling result)).length + (calls (_ ++ [_])).length =
      if flight.Closed then 1 else 0
    rw [if_pos hclosed, calls_called, hcalls, honly]
    simp
  · simp [honly] at hentered
  · simp [honly] at hother

theorem Sound.cancelLock (hstep : flight.step .cancelLock = some flight') :
    flight'.Sound := by
  obtain ⟨-, hsome⟩ := ite_none_right_eq_some.1 hstep
  obtain rfl := Option.some.inj hsome
  refine ⟨h.issued, h.issued_le, ?_, ?_, h.launching, h.launched, ?_, fun hok => ?_, ?_, h.finished,
    h.entered, fun result hresult => ?_, h.chronicle.snoc trivial⟩
  · simpa using h.children
  · simpa [Pending.cancel, extents] using h.remaining
  · simpa [readSum, results, Pending.cancel] using h.bytes
  · have hnever : flight.pending.cancel.status.ok = false := by
      simp only [Pending.cancel]
      split
      next => rfl
      next hfailed => simpa using hfailed
    rw [hnever] at hok
    cases hok
  · show flight.finishers.length + (calls (flight.history ++ [.cancelled])).length =
      if flight.Closed then 1 else 0
    rw [calls_cancelled]
    exact h.tally
  · exact mem_append_left _ (h.decided result hresult)

theorem Sound.cancelFound :
    Sound { flight with cancellers := flight.cancellers + 1 } :=
  { h with }

theorem Sound.cancelBacking
    (hstep : flight.step (.cancelBacking child) = some flight') : flight'.Sound := by
  obtain ⟨-, hsome⟩ := ite_none_right_eq_some.1 hstep
  obtain rfl := Option.some.inj hsome
  exact { h with }

end

theorem Sound.step (h : flight.Sound) (hstep : flight.step move = some flight') :
    flight'.Sound := by
  cases move with
  | callRead => exact h.callRead hstep
  | recordChild child => exact h.recordChild hstep
  | cancelChild => exact h.cancelChild hstep
  | close => exact h.close hstep
  | complete child result => exact h.complete hstep
  | finishLock => exact h.finishLock hstep
  | finishErase result => exact h.finishErase hstep
  | finishCall result => exact h.finishCall hstep
  | cancelFound =>
    cases hstep
    exact h.cancelFound
  | cancelLock => exact h.cancelLock hstep
  | cancelBacking child => exact h.cancelBacking hstep

def launchWork (flight : Flight) : Nat :=
  match flight.launcher with
  | .done => 0
  | .looping => 3 * (flight.extents.length - flight.issued.length) + 5
  | .cancelling _ => 3 * (flight.extents.length - flight.issued.length) + 6
  | .returned => 3 * (flight.extents.length - flight.issued.length) + 7

def finishWork : Finisher → Nat
  | .entered => 3
  | .erasing _ => 2
  | .calling _ => 1

/-- The steps an operation still has to take, not counting those of `cancel`. -/
def work (flight : Flight) : Nat :=
  4 * flight.pending.remaining + flight.launchWork + (flight.finishers.map finishWork).sum

/-- The moves of threads in `cancel`, which the operation does not wait for. -/
def isCancel : FlightMove → Bool
  | .cancelFound | .cancelLock | .cancelBacking _ => true
  | _ => false

theorem sum_sent {sent : Prop} [Decidable sent] :
    ((if sent then [Finisher.entered] else []).map finishWork).sum ≤ 3 := by
  split <;> simp [finishWork]

theorem work_lt (h : flight.Sound) (hstep : flight.step move = some flight')
    (hmove : isCancel move = false) : flight'.work < flight.work := by
  cases move with
  | callRead =>
    simp only [step] at hstep
    split at hstep
    next extent hlauncher hextent =>
      cases hstep
      have hlt : flight.issued.length < flight.extents.length :=
        (List.getElem?_eq_some_iff.1 hextent).1
      simp only [work, launchWork, hlauncher, extents, List.length_append,
        List.length_singleton] at hlt ⊢
      omega
    next => cases hstep
  | recordChild child =>
    simp only [step] at hstep
    split at hstep
    next hlauncher =>
      cases hstep
      simp only [work, launchWork, hlauncher, extents]
      cases flight.pending.cancelled
      · simp only [Bool.false_eq_true, if_false]
        omega
      · simp only [if_true]
        omega
    next => cases hstep
  | cancelChild =>
    simp only [step] at hstep
    split at hstep
    next child hlauncher =>
      cases hstep
      simp only [work, launchWork, hlauncher, extents]
      omega
    next => cases hstep
  | close =>
    simp only [step, ite_none_right_eq_some, Option.some.injEq] at hstep
    obtain ⟨⟨hlauncher, -⟩, rfl⟩ := hstep
    have hsent := @sum_sent (flight.pending.remaining = 0) _
    simp only [work, launchWork, hlauncher, List.map_append, List.sum_append]
    omega
  | complete child result =>
    simp only [step, ite_none_right_eq_some, Option.some.injEq] at hstep
    obtain ⟨hchild, rfl⟩ := hstep
    have hpos := h.remaining_pos hchild
    have hremaining : (flight.pending.absorb result).remaining = flight.pending.remaining - 1 :=
      if_pos (Nat.pos_iff_ne_zero.1 hpos)
    have hsent := @sum_sent ((flight.pending.absorb result).remaining = 0 ∧
      (flight.pending.absorb result).launching = false) _
    show 4 * (flight.pending.absorb result).remaining + flight.launchWork + _ < flight.work
    rw [List.map_append, List.sum_append, work]
    omega
  | finishLock =>
    simp only [step, ite_none_right_eq_some] at hstep
    obtain ⟨hmem, hstep⟩ := hstep
    obtain ⟨honly, -, -⟩ := h.single hmem
    rw [h.entered hmem] at hstep
    simp only [Bool.false_eq_true, if_false, Option.some.injEq, honly, List.erase_cons_head,
      List.nil_append] at hstep
    subst hstep
    simp [work, launchWork, extents, honly, finishWork]
  | finishErase result =>
    simp only [step, ite_none_right_eq_some, Option.some.injEq] at hstep
    obtain ⟨hmem, rfl⟩ := hstep
    obtain ⟨honly, -, -⟩ := h.single hmem
    simp [work, launchWork, extents, honly, finishWork]
  | finishCall result =>
    simp only [step, ite_none_right_eq_some, Option.some.injEq] at hstep
    obtain ⟨hmem, rfl⟩ := hstep
    obtain ⟨honly, -, -⟩ := h.single hmem
    simp [work, launchWork, extents, honly, finishWork]
  | cancelFound | cancelLock | cancelBacking => cases hmove

theorem work_eq (hstep : flight.step move = some flight') (hmove : isCancel move = true) :
    flight'.work = flight.work := by
  cases move with
  | cancelFound =>
    cases hstep
    rfl
  | cancelLock =>
    simp only [step, ite_none_right_eq_some, Option.some.injEq] at hstep
    obtain ⟨-, rfl⟩ := hstep
    rfl
  | cancelBacking child =>
    simp only [step, ite_none_right_eq_some, Option.some.injEq] at hstep
    obtain ⟨-, rfl⟩ := hstep
    rfl
  | _ => cases hmove

theorem Sound.progress (h : flight.Sound) (hwork : flight.work ≠ 0) :
    ∃ move, isCancel move = false ∧ (flight.step move).isSome := by
  cases hlauncher : flight.launcher with
  | looping =>
    by_cases hall : flight.extents.length ≤ flight.issued.length
    · have hall' : flight.request.record.extents.length ≤ flight.issued.length := hall
      exact ⟨.close, rfl, by simp [Flight.step, hlauncher, hall']⟩
    · have hlt : flight.issued.length < flight.request.record.extents.length :=
        Nat.lt_of_not_le hall
      exact ⟨.callRead, rfl, by simp [Flight.step, hlauncher, getElem?_eq_getElem hlt]⟩
  | returned => exact ⟨.recordChild 0, rfl, by simp [Flight.step, hlauncher]⟩
  | cancelling child => exact ⟨.cancelChild, rfl, by simp [Flight.step, hlauncher]⟩
  | done =>
    cases hfinishers : flight.finishers with
    | cons finisher rest =>
      have hmem : finisher ∈ flight.finishers := by simp [hfinishers]
      cases finisher with
      | entered => exact ⟨.finishLock, rfl, by simp [Flight.step, hmem, h.entered hmem]⟩
      | erasing result => exact ⟨.finishErase result, rfl, by simp [Flight.step, hmem]⟩
      | calling result => exact ⟨.finishCall result, rfl, by simp [Flight.step, hmem]⟩
    | nil =>
      have hpos : flight.pending.remaining ≠ 0 := by
        intro hzero
        exact hwork (by simp [work, launchWork, hlauncher, hfinishers, hzero])
      have hlength := h.children.length_eq
      have hremaining := h.remaining
      have hissued := h.launched hlauncher
      simp only [length_append, length_map, length_range] at hlength
      obtain ⟨child, hchild⟩ := exists_mem_of_length_pos
        (by omega : 0 < flight.running.length)
      exact ⟨.complete child ⟨.success, 0, 0⟩, rfl, by simp [Flight.step, hchild]⟩

theorem Sound.called (h : flight.Sound) (hwork : flight.work = 0) :
    (calls flight.history).length = 1 := by
  simp only [work] at hwork
  have hlaunch : flight.launchWork = 0 := by omega
  have hlauncher : flight.launcher = .done := by
    unfold launchWork at hlaunch
    split at hlaunch
    next hdone => exact hdone
    next => omega
    next => omega
    next => omega
  have hlaunching : flight.pending.launching = false := by
    by_contra hset
    exact h.launching.1 (by simpa using hset) hlauncher
  have hfinishers : flight.finishers = [] := by
    cases hfinishers : flight.finishers with
    | nil => rfl
    | cons finisher rest =>
      have hpos : 0 < finishWork finisher := by cases finisher <;> simp [finishWork]
      rw [hfinishers, map_cons, sum_cons] at hwork
      omega
  have htally := h.tally
  have hclosed : flight.Closed := ⟨by omega, hlaunching⟩
  rw [if_pos hclosed, hfinishers] at htally
  simpa using htally

end Flight

def start (extent : PayloadExtent) : Nat := extent.destinationOffset.toNat

def size (extent : PayloadExtent) : Nat := extent.bytes.toNat

/-- The extent names its source and does not run past the end of the address range. -/
def Readable (extent : PayloadExtent) : Prop :=
  extent.path.isEmpty = false ∧ extent.sourceOffset.toNat + extent.bytes.toNat < 2 ^ 64

theorem source_iff {offset bytes : UInt64} :
    ¬ offset > 0xffffffffffffffff - bytes ↔ offset.toNat + bytes.toNat < 2 ^ 64 := by
  have hlast : (0xffffffffffffffff : UInt64).toNat = 2 ^ 64 - 1 := rfl
  have hbytes := bytes.toNat_lt
  have hle : bytes ≤ 0xffffffffffffffff := by
    rw [UInt64.le_iff_toNat_le, hlast]
    omega
  rw [gt_iff_lt, UInt64.lt_iff_toNat_lt, UInt64.toNat_sub_of_le _ _ hle, hlast]
  omega

theorem coverExtents_iff {storedBytes cursor : UInt64} {extents : List PayloadExtent}
    (hcursor : cursor ≤ storedBytes) :
    coverExtents storedBytes cursor extents = .ok storedBytes ↔
      Tiles start size cursor.toNat extents storedBytes.toNat ∧
        ∀ extent ∈ extents, Readable extent := by
  induction extents generalizing cursor with
  | nil =>
    simp only [coverExtents, Except.ok.injEq, Tiles, UInt64.toNat_inj, not_mem_nil,
      false_implies, implies_true, and_true]
  | cons extent rest ih =>
    have hbound := UInt64.le_iff_toNat_le.1 hcursor
    simp only [coverExtents, Tiles, mem_cons, forall_eq_or_imp]
    by_cases hstep : start extent = cursor.toNat ∧ 0 < size extent ∧
        size extent ≤ storedBytes.toNat - cursor.toNat ∧ Readable extent
    · obtain ⟨hstart, hsize, hroom, hreadable⟩ := hstep
      have hadd : (cursor + extent.bytes).toNat = cursor.toNat + extent.bytes.toNat := by
        have hlast := storedBytes.toNat_lt
        unfold size at hroom
        rw [UInt64.toNat_add, Nat.mod_eq_of_lt (by omega)]
      have hnext : cursor + extent.bytes ≤ storedBytes := by
        unfold size at hroom
        rw [UInt64.le_iff_toNat_le, hadd]
        omega
      have hpass : ¬ (extent.path.isEmpty = true ∨ extent.bytes = 0 ∨
          extent.destinationOffset ≠ cursor ∨ extent.bytes > storedBytes - cursor ∨
          extent.sourceOffset > 0xffffffffffffffff - extent.bytes) := by
        simp only [not_or]
        refine ⟨by simp [hreadable.1], fun hzero => ?_, ?_, ?_, source_iff.2 hreadable.2⟩
        · rw [size, hzero] at hsize
          exact absurd hsize (by simp)
        · simpa using UInt64.toNat_inj.1 hstart
        · rw [gt_iff_lt, UInt64.not_lt, UInt64.le_iff_toNat_le, UInt64.toNat_sub_of_le _ _ hcursor]
          exact hroom
      rw [if_neg hpass, ih hnext, hadd]
      exact ⟨fun h => ⟨⟨hstart, hsize, h.1⟩, hreadable, h.2⟩, fun h => ⟨h.1.2.2, h.2.2⟩⟩
    · have hfail : extent.path.isEmpty = true ∨ extent.bytes = 0 ∨
          extent.destinationOffset ≠ cursor ∨ extent.bytes > storedBytes - cursor ∨
          extent.sourceOffset > 0xffffffffffffffff - extent.bytes := by
        by_contra hpass
        simp only [not_or] at hpass
        obtain ⟨hpath, hbytes, hstart, hroom, hsource⟩ := hpass
        refine hstep ⟨by simpa [start] using congrArg UInt64.toNat (not_not.1 hstart), ?_, ?_,
          by simpa using hpath, source_iff.1 hsource⟩
        · exact Nat.pos_of_ne_zero fun hzero => hbytes (UInt64.toNat_inj.1 hzero)
        · rw [gt_iff_lt, UInt64.not_lt, UInt64.le_iff_toNat_le,
            UInt64.toNat_sub_of_le _ _ hcursor] at hroom
          exact hroom
      rw [if_pos hfail]
      refine iff_of_false (by simp) fun h => hstep ⟨h.1.1, h.1.2.1, ?_, h.2.1⟩
      have hle := h.1.2.2.le
      omega

theorem coverExtents_error {storedBytes cursor : UInt64} {extents : List PayloadExtent}
    {status : Status} (h : coverExtents storedBytes cursor extents = .error status) :
    status.ok = false := by
  induction extents generalizing cursor with
  | nil => cases h
  | cons extent rest ih =>
    simp only [coverExtents] at h
    split at h
    next =>
      cases h
      rfl
    next => exact ih h

theorem validateGather_ok_iff {request : ReadRequest} : (validateGather request).ok ↔
    (request.destination.data.isSome ∧ request.record.storedBytes ≠ 0 ∧
      request.record.storedBytes ≤ request.destination.capacity) ∧
    Partitions start size 0 request.record.storedBytes.toNat request.record.extents ∧
      ∀ extent ∈ request.record.extents, Readable extent := by
  have hperm : (sortByDestination request.record.extents).Perm request.record.extents :=
    perm_insertionSort _ _
  have hsorted : (sortByDestination request.record.extents).Pairwise
      fun left right => start left ≤ start right := pairwise_insertionSort _ _
  have hcover := @coverExtents_iff request.record.storedBytes 0
    (sortByDestination request.record.extents) (UInt64.le_iff_toNat_le.2 (Nat.zero_le _))
  rw [UInt64.toNat_zero, tiles_iff_partitions (Nat.zero_le _) hsorted] at hcover
  have hmembers : (∀ extent ∈ sortByDestination request.record.extents, Readable extent) ↔
      ∀ extent ∈ request.record.extents, Readable extent :=
    forall_congr' fun extent => by rw [hperm.mem_iff]
  have hparts : Partitions start size 0 request.record.storedBytes.toNat
      (sortByDestination request.record.extents) ↔
      Partitions start size 0 request.record.storedBytes.toNat request.record.extents :=
    ⟨fun h => h.perm hperm, fun h => h.perm hperm.symm⟩
  rw [hmembers, hparts] at hcover
  rw [← hcover]
  unfold validateGather
  by_cases hnone : request.record.extents = []
  · have hrefused : request.record.storedBytes ≠ 0 → ¬ coverExtents request.record.storedBytes 0
        (sortByDestination request.record.extents) = .ok request.record.storedBytes := by
      intro hstored hok
      rw [hnone] at hok
      exact hstored (Except.ok.inj hok).symm
    rw [if_pos (by simp [hnone])]
    exact iff_of_false (by decide) fun h => hrefused h.1.2.1 h.2
  · rw [if_neg (by simp [hnone])]
    by_cases hdestination : request.destination.data = none ∨ request.record.storedBytes = 0 ∨
        request.record.storedBytes > request.destination.capacity
    · rw [if_pos hdestination]
      refine iff_of_false (by decide) fun h => ?_
      obtain ⟨⟨hdata, hstored, hroom⟩, -⟩ := h
      rcases hdestination with hbad | hbad | hbad
      · simp [hbad] at hdata
      · exact hstored hbad
      · exact absurd hroom (UInt64.not_le.2 hbad)
    · rw [if_neg hdestination]
      simp only [not_or, gt_iff_lt, UInt64.not_lt] at hdestination
      have hgood : request.destination.data.isSome = true ∧ request.record.storedBytes ≠ 0 ∧
          request.record.storedBytes ≤ request.destination.capacity :=
        ⟨isSome_iff_ne_none.2 hdestination.1, hdestination.2⟩
      cases hresult : coverExtents request.record.storedBytes 0
          (sortByDestination request.record.extents) with
      | error status => simp [coverExtents_error hresult]
      | ok cursor =>
        by_cases hend : cursor = request.record.storedBytes
        · simp [hend, hgood]
        · simp only [hend, ne_eq, not_false_eq_true, if_true, Except.ok.injEq, and_false, iff_false]
          decide

end QuantumLlm.Runtime.Gather
