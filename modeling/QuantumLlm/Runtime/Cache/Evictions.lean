import QuantumLlm.Runtime.Cache.Notes

/-!
# Expert cache: eviction loops

Every eviction loop is a trace of notes and evictions that leaves the excluded
entry and every entry in use alone. The loops end: a round that succeeds takes at
least one copy.
-/

namespace QuantumLlm.Runtime

namespace Entry

variable {entry : Entry} {needRam needVram : Bool}

/-- The copies an entry holds over both tiers. -/
def copies (entry : Entry) : Nat := entry.hasHostBytes.toNat + entry.device.isSome.toNat

theorem copies_evicted_lt (huseful : entry.useful needRam needVram) :
    (entry.evicted needRam needVram).copies < entry.copies := by
  obtain ⟨hhost, hdevice, -, -, -⟩ := @evicted_taken entry needRam needVram
  simp only [useful, Bool.or_eq_true, Bool.and_eq_true] at huseful
  rw [copies, copies, hhost, hdevice]
  rcases huseful with ⟨rfl, hbytes⟩ | ⟨rfl, hcopy⟩
  · rw [hbytes]
    cases needVram <;> simp
  · rw [if_pos rfl, hcopy]
    cases needRam <;> cases entry.hasHostBytes <;> simp

end Entry

namespace Core

variable {core middle core' : Core} {key victim : ExpertKey} {excluded : Option ExpertKey}

/-- An eviction loop seen from outside: the excluded entry and the entries in use
are exactly as before. -/
structure Evicts (excluded : Option ExpertKey) (core core' : Core) : Prop where
  trace : Trace (Spare excluded) core core'
  frame : ∀ key, excluded = some key ∨ (core.entry key).evictable = false →
    core'.entry key = core.entry key
  config : core'.config = core.config
  keys : core'.entries.keys = core.entries.keys
  copies_le : core'.copies ≤ core.copies
  vram_le : ∀ resident, core'.load (.vramClass resident) ≤ core.load (.vramClass resident)
  ram_le : ∀ partition, core'.load (.ramPartition partition) ≤ core.load (.ramPartition partition)

namespace Evicts

theorem refl : Evicts excluded core core :=
  ⟨.refl, fun _ _ => rfl, rfl, rfl, Nat.le_refl _, fun _ => Nat.le_refl _, fun _ => Nat.le_refl _⟩

theorem trans (first : Evicts excluded core middle) (second : Evicts excluded middle core') :
    Evicts excluded core core' where
  trace := first.trace.trans second.trace
  frame key hkey := by
    have hmiddle := first.frame key hkey
    rw [← hmiddle] at hkey
    exact (second.frame key hkey).trans hmiddle
  config := second.config.trans first.config
  keys := second.keys.trans first.keys
  copies_le := second.copies_le.trans first.copies_le
  vram_le resident := (second.vram_le resident).trans (first.vram_le resident)
  ram_le partition := (second.ram_le partition).trans (first.ram_le partition)

theorem tick : Evicts excluded core { core with directoryClock := core.directoryClock + 1 } :=
  ⟨tick_noted.spare, fun _ _ => rfl, rfl, rfl, Nat.le_refl _, fun _ => Nat.le_refl _,
    fun _ => Nat.le_refl _⟩

theorem excluded_entry (h : Evicts (some key) core core') : core'.entry key = core.entry key :=
  h.frame key (Or.inl rfl)

theorem drift {account : Account} (h : Evicts excluded core core') :
    core'.drift account = core.drift account := by
  refine @Trace.lift _ _ _ (fun later => later.drift account = core.drift account) h.trace
    (fun hspare hact hbefore => (hact.drift fun key move hmove => ?_).trans hbefore) rfl
  rcases hspare with rfl | ⟨victim, needRam, needVram, rfl, -⟩
  · cases hmove
  · cases hmove
    exact True.intro

theorem classed (h : Evicts excluded core core') (hsound : core.Sound) (hclassed : core.Classed) :
    core'.Classed :=
  h.trace.classed (fun _ _ hspare => hspare.frees) hsound hclassed

end Evicts

section

variable {needRam needVram : Bool} (hkey : victim ∈ core.entries.keys)
  (henabled : (core.entry victim).Enabled core.config (.evict needRam needVram))
include hkey henabled

theorem copies_evictVictim : (core.evictVictim victim needRam needVram).copies < core.copies := by
  have hmoves := evictVictim_moves hkey henabled
  have hexchange : (core.evictVictim victim needRam needVram).copies +
      (core.entry victim).copies = core.copies +
        ((core.evictVictim victim needRam needVram).entry victim).copies :=
    Table.sum_exchange hkey hmoves.keys hmoves.others
  have hlt := Entry.copies_evicted_lt henabled.2
  rw [hmoves.entry] at hexchange
  simp only [Entry.moved] at hexchange
  omega

theorem load_evictVictim :
    (∀ resident, (core.evictVictim victim needRam needVram).load (.vramClass resident) ≤
      core.load (.vramClass resident)) ∧
    ∀ partition, (core.evictVictim victim needRam needVram).load (.ramPartition partition) ≤
      core.load (.ramPartition partition) := by
  have hmoves := evictVictim_moves hkey henabled
  have hload := fun account => @load_exchange core _ victim account hmoves.key_mem hmoves.keys
    (by rw [hmoves.config]) hmoves.others
  obtain ⟨hram, hvram, hclass⟩ := @Entry.reserved_evicted (core.entry victim) needRam needVram
  rw [hmoves.entry] at hload
  rw [UInt64.le_iff_toNat_le] at hram hvram
  constructor
  · intro resident
    have hexchange := hload (.vramClass resident)
    simp only [Entry.charge, Entry.moved, hclass] at hexchange
    split at hexchange <;> omega
  · intro partition
    have hexchange := hload (.ramPartition partition)
    simp only [Entry.charge, Entry.moved] at hexchange
    split at hexchange <;> omega

theorem evictVictim_evicts (hexcluded : excluded ≠ some victim) :
    Evicts excluded core (core.evictVictim victim needRam needVram) := by
  have hmoves := evictVictim_moves hkey henabled
  refine ⟨@Trace.single _ _ _ (.move victim (.evict needRam needVram))
    (Or.inr ⟨victim, needRam, needVram, rfl, hexcluded⟩) hmoves, fun other hother => ?_,
    hmoves.config, hmoves.keys, (copies_evictVictim hkey henabled).le,
    (load_evictVictim hkey henabled).1, (load_evictVictim hkey henabled).2⟩
  refine hmoves.others other ?_
  rintro rfl
  rcases hother with heq | hbusy
  · exact hexcluded heq
  · rw [henabled.1] at hbusy
    cases hbusy

end

section

variable {request : EvictionRequest} {busy : List ExpertKey}

theorem scan_spec (keys : List ExpertKey) (candidate : Option ExpertKey) :
    let found := keys.foldl (fun candidate key =>
      if core.eligible request busy key && candidate.all (core.precedes request key ·) then some key
      else candidate) candidate
    (∀ victim, found = some victim →
      candidate = some victim ∨ victim ∈ keys ∧ core.eligible request busy victim) ∧
      (found = none → candidate = none ∧ ∀ key ∈ keys, core.eligible request busy key = false) := by
  induction keys generalizing candidate with
  | nil => exact ⟨fun _ h => Or.inl h, fun h => ⟨h, by simp⟩⟩
  | cons key rest ih =>
    obtain ⟨hsome, hnone⟩ := ih
      (if core.eligible request busy key && candidate.all (core.precedes request key ·) then
        some key else candidate)
    refine ⟨fun victim hfound => ?_, fun hfound => ?_⟩
    · rcases hsome victim hfound with hstart | ⟨hmem, heligible⟩
      · split at hstart
        next hchosen =>
          simp only [Bool.and_eq_true] at hchosen
          cases hstart
          exact Or.inr ⟨List.mem_cons_self, hchosen.1⟩
        next => exact Or.inl hstart
      · exact Or.inr ⟨List.mem_cons_of_mem _ hmem, heligible⟩
    · obtain ⟨hstart, hrest⟩ := hnone hfound
      split at hstart
      next => cases hstart
      next hskip =>
        subst hstart
        refine ⟨rfl, fun other hother => ?_⟩
        rcases List.mem_cons.1 hother with rfl | hmem
        · simpa using hskip
        · exact hrest other hmem

theorem evictionScan_some (h : core.evictionScan request busy = some victim) :
    victim ∈ core.entries.keys ∧ core.eligible request busy victim := by
  rcases (scan_spec core.entries.keys.items none).1 victim h with hstart | hfound
  · cases hstart
  · exact hfound

theorem eligible_spec (h : core.eligible request busy victim) :
    request.excluded ≠ some victim ∧
      (core.entry victim).Enabled core.config (.evict request.needRam request.needVram) := by
  simp only [eligible, Bool.and_eq_true, decide_eq_true_eq] at h
  obtain ⟨⟨⟨⟨⟨⟨⟨hexcluded, _⟩, hevictable⟩, _⟩, huseful⟩, _⟩, _⟩, _⟩ := h
  exact ⟨hexcluded, hevictable, huseful⟩

end

/-- What a round of a loop does, successful or not. -/
def Evictor (excluded : Option ExpertKey) (evict : Core → Bool × Core) : Prop :=
  ∀ core, Evicts excluded core (evict core).2 ∧
    ((evict core).1 = true → (evict core).2.copies < core.copies)

theorem evictRetry_spec {request : EvictionRequest} (fuel : Nat) (busy : List ExpertKey)
    (core : Core) :
    Evicts request.excluded core (evictRetry request fuel busy core).2 ∧
      ((evictRetry request fuel busy core).1 = true →
        (evictRetry request fuel busy core).2.copies < core.copies) := by
  induction fuel generalizing busy core with
  | zero => exact ⟨.refl, by simp [evictRetry]⟩
  | succ fuel ih =>
    simp only [evictRetry]
    cases hscan : core.evictionScan request busy with
    | none => exact ⟨.tick, by simp⟩
    | some victim =>
      obtain ⟨hkey, heligible⟩ := evictionScan_some hscan
      obtain ⟨hexcluded, henabled⟩ := eligible_spec heligible
      simp only
      split
      next =>
        have hrest := ih (victim :: busy) { core with directoryClock := core.directoryClock + 1 }
        exact ⟨Evicts.tick.trans hrest.1, hrest.2⟩
      next =>
        exact ⟨Evicts.tick.trans (evictVictim_evicts hkey henabled hexcluded),
          fun _ => copies_evictVictim hkey henabled⟩

theorem evictOne_evictor (request : Core → EvictionRequest)
    (hexcluded : ∀ core, (request core).excluded = excluded) :
    Evictor excluded fun core => core.evictOneLocked (request core) := by
  intro core
  rw [← hexcluded core]
  exact evictRetry_spec _ _ core

variable {attempt : Bool × Core} {rest : Core → Bool × Core}

theorem orElse_evictor (hattempt : Evicts excluded core attempt.2 ∧ (attempt.1 = true →
      attempt.2.copies < core.copies)) (hrest : Evictor excluded rest) :
    Evicts excluded core (orElse attempt rest).2 ∧
      ((orElse attempt rest).1 = true → (orElse attempt rest).2.copies < core.copies) := by
  unfold orElse
  split
  next => exact hattempt
  next =>
    obtain ⟨hround, hless⟩ := hrest attempt.2
    exact ⟨hattempt.1.trans hround, fun htrue => (hless htrue).trans_le hattempt.1.copies_le⟩

theorem andThen_evicts (hattempt : Evicts excluded core attempt.2)
    (hrest : Evicts excluded attempt.2 (rest attempt.2).2) :
    Evicts excluded core (andThen attempt rest).2 := by
  unfold andThen
  split
  next => exact hattempt.trans hrest
  next => exact hattempt

theorem andThen_true (h : (andThen attempt rest).1 = true) :
    attempt.1 = true ∧ andThen attempt rest = rest attempt.2 := by
  unfold andThen at h ⊢
  split at h
  next hattempt => exact ⟨hattempt, if_pos hattempt⟩
  next hattempt => exact absurd h hattempt

section

variable {pressed : Core → Bool} {evict : Core → Bool × Core}

section

variable (hevict : Evictor excluded evict)

include hevict

theorem evictLoop_spec (fuel : Nat) (core : Core) :
    Evicts excluded core (evictLoop pressed evict fuel core).2 ∧
      ((evictLoop pressed evict fuel core).1 = true →
        pressed (evictLoop pressed evict fuel core).2 = false) ∧
      (core.copies < fuel → (evictLoop pressed evict fuel core).1 = false →
        ∃ last, Evicts excluded core last ∧ pressed last ∧ (evict last).1 = false) := by
  induction fuel generalizing core with
  | zero => exact ⟨.refl, by simp [evictLoop], by simp⟩
  | succ fuel ih =>
    simp only [evictLoop]
    split
    next hpressed =>
      obtain ⟨hround, hless⟩ := hevict core
      cases hresult : evict core with
      | mk evicted after =>
        rw [hresult] at hround hless
        cases evicted with
        | false => exact ⟨hround, by simp, fun _ _ => ⟨core, .refl, hpressed, by rw [hresult]⟩⟩
        | true =>
          obtain ⟨hrest, hdone, hstuck⟩ := ih after
          refine ⟨hround.trans hrest, hdone, fun hfuel hfalse => ?_⟩
          have hlt := hless rfl
          obtain ⟨last, hlast, hpressure, hfailed⟩ := hstuck (by simp only at hlt; omega) hfalse
          exact ⟨last, hround.trans hlast, hpressure, hfailed⟩
    next hrelaxed => exact ⟨.refl, fun _ => by simpa using hrelaxed, by simp⟩

theorem evictWhile_evicts :
    Evicts excluded core (core.evictWhile pressed evict).2 :=
  (evictLoop_spec hevict _ core).1

theorem evictWhile_true (h : (core.evictWhile pressed evict).1 = true) :
    pressed (core.evictWhile pressed evict).2 = false :=
  (evictLoop_spec hevict _ core).2.1 h

end

end

end Core

end QuantumLlm.Runtime
