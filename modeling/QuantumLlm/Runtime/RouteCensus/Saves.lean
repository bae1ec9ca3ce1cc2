import Mathlib.Logic.Function.Basic
import QuantumLlm.Runtime.RouteCensus.Persistence

/-!
# Saving and loading a census

The double-buffered files of a route census: a save writes a temporary, removes
the slot of its parity, renames the temporary to it and only then advances the
generation. It can fail or be cut off at every step; `load` takes the newest
slot that decodes.
-/

namespace QuantumLlm.Runtime.RouteCensus

open Option

section

variable (sha256 : Bytes → Sha256Digest) (config : RouteCensusConfig) (valid : config.valid = true)

structure LoadState where
  newest : Option (RouteCensus × Bool) := none
  lastError : Status := ⟨.openFailed, "no route census generation exists"⟩

/-- One slot of `load`; a slot that does not exist is skipped. -/
def examine (state : LoadState) (contents : Option Bytes) : LoadState :=
  match contents with
  | none => state
  | some bytes =>
    match decodeFile sha256 config valid bytes with
    | .error status => { state with lastError := status }
    | .ok decoded =>
      match state.newest with
      | none => { state with newest := some decoded }
      | some newest =>
        if decoded.1.generation > newest.1.generation then
          { state with newest := some decoded }
        else state

/-- The slots are `prefix.0` and `prefix.1`. -/
def load (published : Bool → Option Bytes) : Except Status (RouteCensus × Bool) :=
  let state := examine sha256 config valid (examine sha256 config valid {} (published false))
    (published true)
  match state.newest with
  | none => .error state.lastError
  | some newest => .ok newest

end

/-! ## Saving -/

/-- Where a save stands. -/
inductive Stage where
  | directories
  | opening
  | writing
  | written
  | removed
  | renamed
  deriving DecidableEq

structure SaveRun where
  published : Bool → Option Bytes
  temporary : Bool → Option Bytes := fun _ => none
  live : Option RouteCensus := none
  saving : Option Stage := none
  -- history, not data of the program
  /-- What the last successful save stored, or a load since then returned. -/
  settled : Option RouteCensus := none
  /-- What the save in progress, or cut off since the last load, is storing. -/
  attempt : Option RouteCensus := none

inductive SaveAction where
  | startFresh
  | load
  | observe (observation : Observation)
  | beginSave
  | createDirectories (ok : Bool)
  | openTemporary (ok : Bool)
  | write (count : Nat)
  | finishWrite (ok : Bool)
  | removeDestination (ok : Bool)
  | rename (ok : Bool)
  | setGeneration
  | crash

def nextGeneration (census : RouteCensus) : UInt64 := saturatedAdd census.generation 1

/-- `next_generation & 1`. -/
def slotOf (generation : UInt64) : Bool := generation &&& 1 = 1

def withGeneration (census : RouteCensus) (generation : UInt64) : RouteCensus :=
  { census with generation }

def advanced (census : RouteCensus) : RouteCensus :=
  census.withGeneration census.nextGeneration

namespace SaveRun

variable (sha256 : Bytes → Sha256Digest) (config : RouteCensusConfig) (valid : config.valid = true)

/-- A save that returns an error. -/
def failed (run : SaveRun) : SaveRun := { run with saving := none, attempt := none }

def withTemporary (run : SaveRun) (slot : Bool) (contents : Option Bytes) : SaveRun :=
  { run with temporary := Function.update run.temporary slot contents }

def withPublished (run : SaveRun) (slot : Bool) (contents : Option Bytes) : SaveRun :=
  { run with published := Function.update run.published slot contents }

/-- The steps of `save` after its lock, on the census it holds. -/
def saveStep (run : SaveRun) (census : RouteCensus) (stage : Stage) (action : SaveAction) :
    Option SaveRun :=
  let bytes := census.serialize sha256 census.nextGeneration
  let slot := slotOf census.nextGeneration
  match stage, action with
  | .directories, .createDirectories ok =>
    some (if ok then { run with saving := some .opening } else run.failed)
  | .opening, .openTemporary ok =>
    some (if ok then { run.withTemporary slot (some []) with saving := some .writing }
      else run.failed)
  | .writing, .write count => some (run.withTemporary slot (some (bytes.take count)))
  | .writing, .finishWrite ok =>
    some (if ok then { run.withTemporary slot (some bytes) with saving := some .written }
      else (run.withTemporary slot none).failed)
  | .written, .removeDestination ok =>
    -- an error of the removal is cleared
    some { (if ok then run.withPublished slot none else run) with saving := some .removed }
  | .removed, .rename ok =>
    some (if ok then
        { (run.withPublished slot (run.temporary slot)).withTemporary slot none with
          saving := some .renamed }
      else (run.withTemporary slot none).failed)
  | .renamed, .setGeneration =>
    some { run with
      saving := none
      live := some census.advanced
      settled := some census.advanced
      attempt := none }
  | _, _ => none

def step (run : SaveRun) (action : SaveAction) : Option SaveRun :=
  match run.live, run.saving with
  | none, _ =>
    match action with
    | .startFresh => some { run with live := some (fresh config valid), attempt := none }
    | .load =>
      match RouteCensus.load sha256 config valid run.published with
      | .error _ => some run
      | .ok (census, _) =>
        some { run with
          live := some census
          settled := run.settled.map fun _ => census
          attempt := none }
    | _ => none
  | some census, none =>
    match action with
    | .observe observation =>
      some { run with live := (census.observeAccepted observation).getD census }
    | .beginSave => some { run with saving := some .directories, attempt := some census.advanced }
    | .crash => some { run with live := none }
    | _ => none
  | some census, some stage =>
    match action with
    | .crash => some { run with live := none, saving := none }
    | action => run.saveStep sha256 census stage action

/-- What a load now returns was stored by the last successful save, or by the
save in progress. -/
def Durable (run : SaveRun) : Prop :=
  ∀ settled, run.settled = some settled →
    ∃ census changed, RouteCensus.load sha256 config valid run.published = .ok (census, changed) ∧
      (census = settled ∨ run.attempt = some census)

end SaveRun

/-! ## What a load returns -/

section

variable (sha256 : Bytes → Sha256Digest) (config : RouteCensusConfig) (valid : config.valid = true)

/-- The slot holds a file that decodes to the census. -/
def Stored (published : Bool → Option Bytes) (slot : Bool) (census : RouteCensus) : Prop :=
  ∃ bytes changed, published slot = some bytes ∧
    decodeFile sha256 config valid bytes = .ok (census, changed)

/-- The census is in one slot and the other slot holds nothing as new. -/
def Leads (published : Bool → Option Bytes) (slot : Bool) (census : RouteCensus) : Prop :=
  Stored sha256 config valid published slot census ∧
    ∀ other, Stored sha256 config valid published (!slot) other →
      other.generation < census.generation

def newer (newest decoded : Option (RouteCensus × Bool)) : Option (RouteCensus × Bool) :=
  match decoded, newest with
  | none, newest => newest
  | some decoded, none => some decoded
  | some decoded, some newest =>
    if decoded.1.generation > newest.1.generation then some decoded else some newest

def decodedSlot (published : Bool → Option Bytes) (slot : Bool) : Option (RouteCensus × Bool) :=
  (published slot).bind fun bytes => (decodeFile sha256 config valid bytes).toOption

variable {sha256 config valid} {published : Bool → Option Bytes} {slot : Bool}
  {census other : RouteCensus}

theorem examine_newest (state : LoadState) :
    (examine sha256 config valid state (published slot)).newest =
      newer state.newest (decodedSlot sha256 config valid published slot) := by
  unfold examine decodedSlot
  cases published slot with
  | none => rfl
  | some bytes =>
    simp only [bind_some]
    cases decodeFile sha256 config valid bytes with
    | error status => rfl
    | ok decoded =>
      cases hnewest : state.newest with
      | none => simp [newer, Except.toOption]
      | some newest =>
        simp only [newer, Except.toOption]
        split
        next => rfl
        next => exact hnewest

theorem stored_iff : Stored sha256 config valid published slot census ↔
    ∃ changed, decodedSlot sha256 config valid published slot = some (census, changed) := by
  unfold Stored decodedSlot
  cases published slot with
  | none => simp
  | some bytes =>
    cases hdecode : decodeFile sha256 config valid bytes with
    | error status => simp [hdecode, Except.toOption]
    | ok decoded =>
      simp only [Option.some.injEq, bind_some, hdecode, Except.toOption]
      constructor
      · rintro ⟨bytes', changed, rfl, hsome⟩
        rw [hdecode, Except.ok.injEq] at hsome
        exact ⟨changed, hsome⟩
      · rintro ⟨changed, rfl⟩
        exact ⟨bytes, changed, rfl, hdecode⟩

theorem load_eq : (load sha256 config valid published).toOption =
    newer (decodedSlot sha256 config valid published false)
      (decodedSlot sha256 config valid published true) := by
  unfold load
  have hfirst := @examine_newest sha256 config valid published false {}
  have hsecond := @examine_newest sha256 config valid published true
    (examine sha256 config valid {} (published false))
  rw [hfirst] at hsecond
  have hnone : newer ({} : LoadState).newest (decodedSlot sha256 config valid published false) =
      decodedSlot sha256 config valid published false := by
    cases decodedSlot sha256 config valid published false <;> rfl
  rw [hnone] at hsecond
  simp only
  rw [← hsecond]
  split
  next hnewest => rw [hnewest]; rfl
  next newest hnewest => rw [hnewest]; rfl

theorem newer_some {first second : Option (RouteCensus × Bool)} {result : RouteCensus × Bool}
    (h : newer first second = some result) : (first = some result ∨ second = some result) ∧
      ∀ decoded, first = some decoded ∨ second = some decoded →
        decoded.1.generation ≤ result.1.generation := by
  cases first with
  | none =>
    cases second with
    | none => cases h
    | some right =>
      cases h
      simp
  | some left =>
    cases second with
    | none =>
      cases h
      simp
    | some right =>
      simp only [newer] at h
      split at h
      next hgreater =>
        cases h
        refine ⟨.inr rfl, ?_⟩
        rintro decoded (hleft | hright)
        · cases hleft
          exact UInt64.le_of_lt hgreater
        · cases hright
          exact UInt64.le_refl _
      next hgreater =>
        cases h
        refine ⟨.inl rfl, ?_⟩
        rintro decoded (hleft | hright)
        · cases hleft
          exact UInt64.le_refl _
        · cases hright
          exact UInt64.not_lt.1 hgreater

theorem newer_none {first second : Option (RouteCensus × Bool)} (h : newer first second = none) :
    first = none ∧ second = none := by
  cases first with
  | none =>
    cases second with
    | none => exact ⟨rfl, rfl⟩
    | some right => cases h
  | some left =>
    cases second with
    | none => cases h
    | some right =>
      simp only [newer] at h
      split at h <;> cases h

theorem exists_slot {holds : Bool → Prop} : (∃ slot, holds slot) ↔ holds false ∨ holds true := by
  simp

theorem load_ok {changed : Bool} (h : load sha256 config valid published = .ok (census, changed)) :
    (∃ slot, Stored sha256 config valid published slot census) ∧
      ∀ slot other, Stored sha256 config valid published slot other →
        other.generation ≤ census.generation := by
  have hload := @load_eq sha256 config valid published
  rw [h] at hload
  obtain ⟨hone, hall⟩ := newer_some hload.symm
  constructor
  · rw [exists_slot, stored_iff, stored_iff]
    exact hone.imp (fun h => ⟨changed, h⟩) fun h => ⟨changed, h⟩
  · intro slot other hother
    obtain ⟨changed', hother⟩ := stored_iff.1 hother
    cases slot with
    | false => exact hall (other, changed') (.inl hother)
    | true => exact hall (other, changed') (.inr hother)

theorem load_error {status : Status} (h : load sha256 config valid published = .error status) :
    ¬ Stored sha256 config valid published slot other := by
  have hload := @load_eq sha256 config valid published
  rw [h] at hload
  obtain ⟨hfalse, htrue⟩ := newer_none hload.symm
  rw [stored_iff]
  rintro ⟨changed, hother⟩
  cases slot with
  | false => rw [hfalse] at hother; cases hother
  | true => rw [htrue] at hother; cases hother

theorem Stored.unique (h : Stored sha256 config valid published slot census)
    (hother : Stored sha256 config valid published slot other) : other = census := by
  obtain ⟨changed, h⟩ := stored_iff.1 h
  obtain ⟨changed', hother⟩ := stored_iff.1 hother
  rw [h] at hother
  cases hother
  rfl

theorem Leads.load (h : Leads sha256 config valid published slot census) :
    ∃ changed, load sha256 config valid published = .ok (census, changed) := by
  cases hload : RouteCensus.load sha256 config valid published with
  | error status => exact absurd h.1 (load_error hload)
  | ok result =>
    obtain ⟨hone, hall⟩ :=
      @load_ok sha256 config valid published result.1 result.2 hload
    obtain ⟨from_, hstored⟩ := hone
    refine ⟨result.2, ?_⟩
    have hle := hall slot census h.1
    by_cases hslot : from_ = slot
    · subst hslot
      rw [← Stored.unique h.1 hstored]
    · have hflip : from_ = !slot := by
        cases from_ <;> cases slot <;> simp_all
      rw [hflip] at hstored
      exact absurd hle (UInt64.not_le.2 (h.2 _ hstored))

theorem Stored.consistent (h : Stored sha256 config valid published slot census) :
    Consistent census ∧ census.config = config := by
  obtain ⟨bytes, changed, -, hdecode⟩ := h
  obtain ⟨hconsistent, hconfig⟩ := decodeFile_consistent hdecode
  exact ⟨hconsistent, hconfig⟩

end

/-! ## Slots and generations -/

section

variable {sha256 : Bytes → Sha256Digest} {config : RouteCensusConfig} {valid : config.valid = true}
  {published : Bool → Option Bytes} {slot : Bool} {census other : RouteCensus}

theorem Consistent.withGeneration (h : Consistent census) (generation : UInt64) :
    Consistent (census.withGeneration generation) :=
  { h with }

@[simp] theorem withGeneration_generation (generation : UInt64) :
    (census.withGeneration generation).generation = generation := rfl

@[simp] theorem withGeneration_config (generation : UInt64) :
    (census.withGeneration generation).config = census.config := rfl

theorem advanced_generation : census.advanced.generation = census.nextGeneration := by
  rw [advanced, withGeneration_generation]

theorem nextGeneration_toNat (h : census.generation ≠ kMaximumU64) :
    census.nextGeneration.toNat = census.generation.toNat + 1 := by
  apply saturatedAdd_one
  rw [ne_eq, ← UInt64.toNat_inj, kMaximumU64_toNat] at h
  have hlt := census.generation.toNat_lt
  omega

theorem nextGeneration_ne_zero : census.nextGeneration ≠ 0 := by
  rw [ne_eq, ← UInt64.toNat_inj, nextGeneration, saturatedAdd_toNat, UInt64.toNat_one,
    UInt64.toNat_zero]
  omega

theorem slotOf_iff {generation : UInt64} :
    slotOf generation = true ↔ generation.toNat % 2 = 1 := by
  rw [slotOf, decide_eq_true_eq, ← UInt64.toNat_inj, UInt64.toNat_and, UInt64.toNat_one,
    Nat.and_one_is_mod]

theorem slotOf_nextGeneration (h : census.generation ≠ kMaximumU64) :
    slotOf census.nextGeneration = !slotOf census.generation := by
  rw [Bool.eq_iff_iff, Bool.not_eq_true', ← Bool.not_eq_true, slotOf_iff, slotOf_iff,
    nextGeneration_toNat h]
  omega

theorem stored_advanced (h : Consistent census) (hconfig : census.config = config)
    (hpublished : published slot = some (census.serialize sha256 census.nextGeneration)) :
    Stored sha256 config valid published slot census.advanced := by
  subst hconfig
  exact ⟨_, _, hpublished, @decodeFile_serialize sha256 census census.nextGeneration
    census.config.modelId h nextGeneration_ne_zero valid⟩

theorem stored_update {contents : Option Bytes} {at_ : Bool} (hne : slot ≠ at_) :
    Stored sha256 config valid (Function.update published at_ contents) slot census ↔
      Stored sha256 config valid published slot census := by
  unfold Stored
  rw [Function.update_of_ne hne]

theorem not_stored_removed :
    ¬ Stored sha256 config valid (Function.update published slot none) slot census := by
  rintro ⟨bytes, changed, hbytes, -⟩
  rw [Function.update_self] at hbytes
  cases hbytes

theorem Stored.of_removed {at_ : Bool}
    (h : Stored sha256 config valid (Function.update published at_ none) slot census) :
    Stored sha256 config valid published slot census := by
  by_cases hslot : slot = at_
  · subst hslot
    exact absurd h not_stored_removed
  · exact (stored_update hslot).1 h

theorem Leads.removed (h : Leads sha256 config valid published slot census) :
    Leads sha256 config valid (Function.update published (!slot) none) slot census := by
  refine ⟨(stored_update (by cases slot <;> decide)).2 h.1, ?_⟩
  intro other hother
  exact absurd hother not_stored_removed

end

/-! ## The invariant of saving -/

namespace SaveRun

variable (sha256 : Bytes → Sha256Digest) (config : RouteCensusConfig) (valid : config.valid = true)

structure Inv (run : SaveRun) : Prop where
  consistent : ∀ census, run.live = some census → Consistent census ∧ census.config = config
  idle : run.live = none → run.saving = none
  older : ∀ census, run.live = some census → run.saving ≠ some .renamed → ∀ slot other,
    Stored sha256 config valid run.published slot other → other.generation ≤ census.generation
  room : ∀ census, run.live = some census → run.saving ≠ none →
    census.generation ≠ kMaximumU64 ∧ run.attempt = some census.advanced
  written : ∀ census, run.live = some census →
    run.saving = some .written ∨ run.saving = some .removed →
    run.temporary (slotOf census.nextGeneration) =
      some (census.serialize sha256 census.nextGeneration)
  renamed : ∀ census, run.live = some census → run.saving = some .renamed →
    Leads sha256 config valid run.published (slotOf census.nextGeneration) census.advanced
  settled : ∀ census, run.settled = some census →
    Leads sha256 config valid run.published (slotOf census.generation) census ∨
      ∃ attempt, run.attempt = some attempt ∧
        Leads sha256 config valid run.published (slotOf attempt.generation) attempt
  current : ∀ census live, run.settled = some census → run.live = some live →
    census.generation = live.generation ∧ (run.saving ≠ some .renamed →
      Leads sha256 config valid run.published (slotOf census.generation) census)

/-- Fresh censuses start only where nothing decodes, and counters stay in range. -/
def Allowed (run : SaveRun) : SaveAction → Prop
  | .startFresh => ∃ status, RouteCensus.load sha256 config valid run.published = .error status
  | .observe _ => ∀ census, run.live = some census → Headroom census 1
  | .beginSave => ∀ census, run.live = some census → census.generation ≠ kMaximumU64
  | _ => True

variable {sha256 config valid} {run run' : SaveRun}

theorem Inv.durable (h : Inv sha256 config valid run) : Durable sha256 config valid run := by
  intro settled hsettled
  rcases h.settled settled hsettled with hleads | ⟨attempt, hattempt, hleads⟩
  · obtain ⟨changed, hload⟩ := hleads.load
    exact ⟨settled, changed, hload, .inl rfl⟩
  · obtain ⟨changed, hload⟩ := hleads.load
    exact ⟨attempt, changed, hload, .inr hattempt⟩

theorem inv_start (published temporary : Bool → Option Bytes) :
    Inv sha256 config valid { published, temporary } := by
  constructor <;> intros <;> first | rfl | contradiction

section

variable {census : RouteCensus} {stage : Stage} {temporary : Bool → Option Bytes}
  (h : Inv sha256 config valid run) (hlive : run.live = some census)
include h hlive

theorem Inv.leads (hstage : run.saving ≠ some .renamed) :
    ∀ settled, run.settled = some settled →
      Leads sha256 config valid run.published (slotOf settled.generation) settled :=
  fun settled hsettled => (h.current settled census hsettled hlive).2 hstage

theorem Inv.withStage (hsaving : run.saving ≠ none) (hstage : run.saving ≠ some .renamed)
    (hnext : stage ≠ .renamed)
    (hwritten : stage = .written ∨ stage = .removed →
      temporary (slotOf census.nextGeneration) =
        some (census.serialize sha256 census.nextGeneration)) :
    Inv sha256 config valid { run with temporary, saving := some stage } where
  consistent := h.consistent
  idle := fun hnone => by rw [hlive] at hnone; cases hnone
  older := fun other hother _ => h.older other hother hstage
  room := fun other hother _ => h.room other hother hsaving
  written := by
    intro other hother hstage'
    rw [hlive] at hother
    cases hother
    simp only [Option.some.injEq] at hstage'
    exact hwritten hstage'
  renamed := fun _ _ hrenamed => absurd (Option.some.inj hrenamed) hnext
  settled := h.settled
  current := fun settled live hsettled hlive' =>
    (h.current settled live hsettled hlive').imp_right fun hleads _ => hleads hstage

theorem Inv.failed (hstage : run.saving ≠ some .renamed) :
    Inv sha256 config valid ({ run with temporary } : SaveRun).failed where
  consistent := h.consistent
  idle := fun _ => rfl
  older := fun other hother _ => h.older other hother hstage
  room := fun _ _ hnone => absurd rfl hnone
  written := fun _ _ hstage' => by rcases hstage' with hstage' | hstage' <;> cases hstage'
  renamed := nofun
  settled := fun settled hsettled => .inl (h.leads hlive hstage settled hsettled)
  current := fun settled live hsettled hlive' =>
    (h.current settled live hsettled hlive').imp_right fun hleads _ => hleads hstage

theorem Inv.removedDestination (hsaving : run.saving = some .written) :
    Inv sha256 config valid { run with
      published := Function.update run.published (slotOf census.nextGeneration) none
      saving := some .removed } := by
  have hstage : run.saving ≠ some .renamed := by rw [hsaving]; decide
  have hbusy : run.saving ≠ none := by rw [hsaving]; decide
  have hslot := slotOf_nextGeneration (h.room census hlive hbusy).1
  have hleads : ∀ settled, run.settled = some settled → Leads sha256 config valid
      (Function.update run.published (slotOf census.nextGeneration) none)
        (slotOf settled.generation) settled := by
    intro settled hsettled
    rw [hslot, ← (h.current settled census hsettled hlive).1]
    exact (h.leads hlive hstage settled hsettled).removed
  constructor
  case consistent => exact h.consistent
  case idle => intro hnone; rw [hlive] at hnone; cases hnone
  case older =>
    intro live hlive' _ slot other hother
    exact h.older live hlive' hstage slot other hother.of_removed
  case room => exact fun live hlive' _ => h.room live hlive' hbusy
  case written => exact fun live hlive' _ => h.written live hlive' (.inl hsaving)
  case renamed => exact nofun
  case settled => exact fun settled hsettled => .inl (hleads settled hsettled)
  case current =>
    exact fun settled live hsettled hlive' =>
      ⟨(h.current settled live hsettled hlive').1, fun _ => hleads settled hsettled⟩

theorem Inv.renamedTemporary (hsaving : run.saving = some .removed) :
    Inv sha256 config valid { run with
      published := Function.update run.published (slotOf census.nextGeneration)
        (run.temporary (slotOf census.nextGeneration))
      temporary
      saving := some .renamed } := by
  have hstage : run.saving ≠ some .renamed := by rw [hsaving]; decide
  have hbusy : run.saving ≠ none := by rw [hsaving]; decide
  obtain ⟨hroom, hattempt⟩ := h.room census hlive hbusy
  obtain ⟨hconsistent, hconfig⟩ := h.consistent census hlive
  have hleads : Leads sha256 config valid
      (Function.update run.published (slotOf census.nextGeneration)
        (run.temporary (slotOf census.nextGeneration)))
      (slotOf census.nextGeneration) census.advanced := by
    constructor
    · apply stored_advanced hconsistent hconfig
      rw [Function.update_self, h.written census hlive (.inr hsaving)]
    · intro other hother
      have hother := (stored_update (by cases slotOf census.nextGeneration <;> decide)).1 hother
      have hle := h.older census hlive hstage _ other hother
      rw [UInt64.le_iff_toNat_le] at hle
      rw [advanced_generation, UInt64.lt_iff_toNat_lt, nextGeneration_toNat hroom]
      omega
  constructor
  case consistent => exact h.consistent
  case idle => intro hnone; rw [hlive] at hnone; cases hnone
  case older => exact fun _ _ hrenamed => absurd rfl hrenamed
  case room => exact fun live hlive' _ => h.room live hlive' hbusy
  case written => exact fun _ _ hstage' => by rcases hstage' with hstage' | hstage' <;> cases hstage'
  case renamed =>
    intro live hlive' _
    rw [hlive] at hlive'
    cases hlive'
    exact hleads
  case settled =>
    refine fun _ _ => .inr ⟨census.advanced, hattempt, ?_⟩
    rw [advanced_generation]
    exact hleads
  case current =>
    exact fun settled live hsettled hlive' =>
      ⟨(h.current settled live hsettled hlive').1, fun hrenamed => absurd rfl hrenamed⟩

theorem Inv.saved (hsaving : run.saving = some .renamed) :
    Inv sha256 config valid { run with
      saving := none
      live := some census.advanced
      settled := some census.advanced
      attempt := none } := by
  obtain ⟨hconsistent, hconfig⟩ := h.consistent census hlive
  have hleads := h.renamed census hlive hsaving
  have hadvanced : Consistent census.advanced := hconsistent.withGeneration _
  have hsettled : Leads sha256 config valid run.published (slotOf census.advanced.generation)
      census.advanced := by
    rw [advanced_generation]
    exact hleads
  constructor
  case consistent =>
    rintro live ⟨⟩
    rw [advanced, withGeneration_config]
    exact ⟨hadvanced, hconfig⟩
  case idle => exact fun _ => rfl
  case older =>
    rintro live ⟨⟩ - slot other hother
    by_cases hslot : slot = slotOf census.nextGeneration
    · subst hslot
      rw [Stored.unique hleads.1 hother]
      exact UInt64.le_refl _
    · have hflip : slot = !slotOf census.nextGeneration := by
        cases slot <;> cases hnext : slotOf census.nextGeneration <;> simp_all
      subst hflip
      exact UInt64.le_of_lt (hleads.2 other hother)
  case room => exact fun _ _ hnone => absurd rfl hnone
  case written => exact fun _ _ hstage' => by rcases hstage' with hstage' | hstage' <;> cases hstage'
  case renamed => exact nofun
  case settled => rintro settled ⟨⟩; exact .inl hsettled
  case current => rintro settled live ⟨⟩ ⟨⟩; exact ⟨rfl, fun _ => hsettled⟩

omit hlive in
theorem Inv.crashed : Inv sha256 config valid { run with live := none, saving := none } where
  consistent := nofun
  idle := fun _ => rfl
  older := nofun
  room := nofun
  written := nofun
  renamed := nofun
  settled := h.settled
  current := nofun

theorem Inv.saveStep {action : SaveAction} (hsaving : run.saving = some stage)
    (hstep : run.saveStep sha256 census stage action = some run') :
    Inv sha256 config valid run' := by
  have hbusy : run.saving ≠ none := by rw [hsaving]; exact some_ne_none _
  unfold SaveRun.saveStep at hstep
  split at hstep
  next ok =>
    cases ok with
    | true =>
      cases hstep
      exact h.withStage hlive hbusy (by rw [hsaving]; decide) (by decide) (by simp)
    | false =>
      cases hstep
      exact h.failed hlive (by rw [hsaving]; decide)
  next ok =>
    cases ok with
    | true =>
      cases hstep
      exact h.withStage hlive hbusy (by rw [hsaving]; decide) (by decide) (by simp)
    | false =>
      cases hstep
      exact h.failed hlive (by rw [hsaving]; decide)
  next count =>
    cases hstep
    have hkept := @Inv.withStage sha256 config valid run census .writing
      (Function.update run.temporary (slotOf census.nextGeneration)
        (some ((census.serialize sha256 census.nextGeneration).take count))) h hlive hbusy
        (by rw [hsaving]; decide) (by decide) (by simp)
    rw [← hsaving] at hkept
    exact hkept
  next ok =>
    cases ok with
    | true =>
      cases hstep
      exact h.withStage hlive hbusy (by rw [hsaving]; decide) (by decide)
        fun _ => Function.update_self _ _ _
    | false =>
      cases hstep
      exact h.failed hlive (by rw [hsaving]; decide)
  next ok =>
    cases ok with
    | true =>
      cases hstep
      exact h.removedDestination hlive hsaving
    | false =>
      cases hstep
      exact h.withStage hlive hbusy (by rw [hsaving]; decide) (by decide)
        fun _ => h.written census hlive (.inl hsaving)
  next ok =>
    cases ok with
    | true =>
      cases hstep
      exact h.renamedTemporary hlive hsaving
    | false =>
      cases hstep
      exact h.failed hlive (by rw [hsaving]; decide)
  next =>
    cases hstep
    exact h.saved hlive hsaving
  next => cases hstep

theorem Inv.observed {observation : Observation} (hsaving : run.saving = none)
    (hroom : Headroom census 1) :
    Inv sha256 config valid { run with
      live := some ((census.observeAccepted observation).getD census) } := by
  obtain ⟨hconsistent, hconfig⟩ := h.consistent census hlive
  have hafter : Consistent ((census.observeAccepted observation).getD census) ∧
      ((census.observeAccepted observation).getD census).config = census.config ∧
      ((census.observeAccepted observation).getD census).generation = census.generation := by
    cases hobserve : census.observeAccepted observation with
    | none => exact ⟨hconsistent, rfl, rfl⟩
    | some after =>
      obtain ⟨hafter, hconfig', hgeneration, -⟩ := hconsistent.observeAccepted hroom hobserve
      exact ⟨hafter, hconfig', hgeneration⟩
  obtain ⟨hconsistent', hconfig', hgeneration⟩ := hafter
  have hstage : run.saving ≠ some .renamed := by rw [hsaving]; exact nofun
  constructor
  case consistent => rintro live ⟨⟩; exact ⟨hconsistent', hconfig'.trans hconfig⟩
  case idle => exact fun _ => hsaving
  case older =>
    rintro live ⟨⟩ - slot other hother
    rw [hgeneration]
    exact h.older census hlive hstage slot other hother
  case room => exact fun _ _ hbusy => absurd hsaving hbusy
  case written =>
    intro _ _ hstage'
    rw [hsaving] at hstage'
    rcases hstage' with hstage' | hstage' <;> cases hstage'
  case renamed => exact fun _ _ hrenamed => absurd hrenamed hstage
  case settled => exact h.settled
  case current =>
    rintro settled live hsettled ⟨⟩
    rw [hgeneration]
    exact h.current settled census hsettled hlive

theorem Inv.begun (hsaving : run.saving = none) (hroom : census.generation ≠ kMaximumU64) :
    Inv sha256 config valid { run with
      saving := some .directories, attempt := some census.advanced } := by
  have hstage : run.saving ≠ some .renamed := by rw [hsaving]; exact nofun
  constructor
  case consistent => exact h.consistent
  case idle => intro hnone; rw [hlive] at hnone; cases hnone
  case older => exact fun live hlive' _ => h.older live hlive' hstage
  case room =>
    intro live hlive' _
    rw [hlive] at hlive'
    cases hlive'
    exact ⟨hroom, rfl⟩
  case written => exact fun _ _ hstage' => by rcases hstage' with hstage' | hstage' <;> cases hstage'
  case renamed => exact nofun
  case settled => exact fun settled hsettled => .inl (h.leads hlive hstage settled hsettled)
  case current =>
    exact fun settled live hsettled hlive' =>
      (h.current settled live hsettled hlive').imp_right fun hleads _ => hleads hstage

end

theorem Inv.started {status : Status} (h : Inv sha256 config valid run) (hlive : run.live = none)
    (hload : RouteCensus.load sha256 config valid run.published = .error status) :
    Inv sha256 config valid { run with live := some (fresh config valid), attempt := none } := by
  have hidle := h.idle hlive
  have hnothing : ∀ settled, run.settled ≠ some settled := by
    intro settled hsettled
    obtain ⟨census, changed, hok, -⟩ := h.durable settled hsettled
    rw [hload] at hok
    cases hok
  constructor
  case consistent => rintro live ⟨⟩; exact ⟨consistent_fresh valid, rfl⟩
  case idle => exact nofun
  case older => exact fun _ _ _ _ _ hother => absurd hother (load_error hload)
  case room => exact fun _ _ hbusy => absurd hidle hbusy
  case written =>
    intro _ _ hstage'
    rw [hidle] at hstage'
    rcases hstage' with hstage' | hstage' <;> cases hstage'
  case renamed => intro _ _ hrenamed; rw [hidle] at hrenamed; cases hrenamed
  case settled => exact fun settled hsettled => absurd hsettled (hnothing settled)
  case current => exact fun settled _ hsettled => absurd hsettled (hnothing settled)

theorem Inv.loaded {census : RouteCensus} {changed : Bool} (h : Inv sha256 config valid run)
    (hlive : run.live = none)
    (hload : RouteCensus.load sha256 config valid run.published = .ok (census, changed)) :
    Inv sha256 config valid { run with
      live := some census
      settled := run.settled.map fun _ => census
      attempt := none } := by
  have hidle := h.idle hlive
  obtain ⟨⟨slot, hstored⟩, hall⟩ := load_ok hload
  have hleads : ∀ settled, run.settled.map (fun _ => census) = some settled →
      settled = census ∧ Leads sha256 config valid run.published (slotOf census.generation) census := by
    intro settled hsettled
    obtain ⟨before, hbefore, rfl⟩ := map_eq_some_iff.1 hsettled
    refine ⟨rfl, ?_⟩
    rcases h.settled before hbefore with hleads | ⟨attempt, -, hleads⟩
    · obtain ⟨changed', hload'⟩ := hleads.load
      rw [hload] at hload'
      cases hload'
      exact hleads
    · obtain ⟨changed', hload'⟩ := hleads.load
      rw [hload] at hload'
      cases hload'
      exact hleads
  constructor
  case consistent => rintro live ⟨⟩; exact hstored.consistent
  case idle => exact nofun
  case older => rintro live ⟨⟩ - slot other hother; exact hall slot other hother
  case room => exact fun _ _ hbusy => absurd hidle hbusy
  case written =>
    intro _ _ hstage'
    rw [hidle] at hstage'
    rcases hstage' with hstage' | hstage' <;> cases hstage'
  case renamed => intro _ _ hrenamed; rw [hidle] at hrenamed; cases hrenamed
  case settled =>
    intro settled hsettled
    obtain ⟨rfl, hleads⟩ := hleads settled hsettled
    exact .inl hleads
  case current =>
    rintro settled live hsettled ⟨⟩
    obtain ⟨rfl, hleads⟩ := hleads settled hsettled
    exact ⟨rfl, fun _ => hleads⟩

theorem Inv.step {action : SaveAction} (h : Inv sha256 config valid run)
    (hallowed : Allowed sha256 config valid run action)
    (hstep : run.step sha256 config valid action = some run') : Inv sha256 config valid run' := by
  unfold SaveRun.step at hstep
  split at hstep
  next _ _ hlive =>
    split at hstep
    next =>
      cases hstep
      obtain ⟨status, hload⟩ := hallowed
      exact h.started hlive hload
    next =>
      split at hstep
      next =>
        cases hstep
        exact h
      next hload =>
        cases hstep
        exact h.loaded hlive hload
    next => cases hstep
  next census hlive hsaving =>
    split at hstep
    next observation =>
      cases hstep
      exact h.observed hlive hsaving (hallowed census hlive)
    next =>
      cases hstep
      exact h.begun hlive hsaving (hallowed census hlive)
    next =>
      cases hstep
      have hcrashed := h.crashed
      rw [← hsaving] at hcrashed
      exact hcrashed
    next => cases hstep
  next census stage hlive hsaving =>
    split at hstep
    next =>
      cases hstep
      exact h.crashed
    next => exact h.saveStep hlive hsaving hstep

/-- Saving is crash-safe and monotone: from any contents of the slots, through any
saves, failures, crashes and loads, a load returns what was last saved or what
was being saved. -/
theorem saves_are_durable {published temporary : Bool → Option Bytes}
    (h : Reaches (step sha256 config valid) (Allowed sha256 config valid)
      { published, temporary } run) : Durable sha256 config valid run := by
  have hinv : Inv sha256 config valid run := by
    induction h with
    | refl => exact inv_start published temporary
    | next _ hallowed hstep ih => exact ih.step hallowed hstep
  exact hinv.durable

/-! ## Runs -/

/-- A digest for executions on small inputs. -/
def zeroSha256 (_ : Bytes) : Sha256Digest := ⟨List.replicate 32 0, zeroBytes_length⟩

def savedActions : List SaveAction :=
  [.beginSave, .createDirectories true, .openTemporary true, .write 10, .finishWrite true,
    .removeDestination true, .rename true, .setGeneration]

def noFiles : SaveRun := { published := fun _ => none }

/-- An executable form of `Allowed`. -/
def allowedStep (run : SaveRun) : SaveAction → Bool
  | .startFresh =>
    (RouteCensus.load zeroSha256 smallConfig smallConfig_valid run.published).toOption.isNone
  | .observe _ => run.live.all fun census =>
    census.totalSelections.toNat + 1 * census.config.width < 2 ^ 64 &&
      (census.completedRoutes.toNat + 1) * census.config.width < 2 ^ 64
  | .beginSave => run.live.all fun census => census.generation ≠ kMaximumU64
  | _ => true

theorem allowed_of_allowedStep {action : SaveAction} (h : allowedStep run action = true) :
    Allowed zeroSha256 smallConfig smallConfig_valid run action := by
  cases action with
  | startFresh =>
    simp only [allowedStep] at h
    cases hload : RouteCensus.load zeroSha256 smallConfig smallConfig_valid run.published with
    | error status => exact ⟨status, hload⟩
    | ok result => rw [hload] at h; cases h
  | observe observation =>
    intro census hlive
    simp only [allowedStep, hlive, all_some, Bool.and_eq_true, decide_eq_true_eq] at h
    exact h
  | beginSave =>
    intro census hlive
    simp only [allowedStep, hlive, all_some, decide_eq_true_eq] at h
    exact h
  | _ => trivial

/-- A save, an observation, a second save cut off after its rename, and a load. -/
theorem cut_off_save_is_durable : ∃ run, run.settled.isSome = true ∧
    Reaches (step zeroSha256 smallConfig smallConfig_valid)
      (Allowed zeroSha256 smallConfig smallConfig_valid) noFiles run ∧
    Durable zeroSha256 smallConfig smallConfig_valid run := by
  have hrun : ((runChecked (step zeroSha256 smallConfig smallConfig_valid) allowedStep noFiles
      ([.startFresh] ++ savedActions ++ [.observe ⟨0, [1], []⟩] ++ savedActions.take 7 ++
        [.crash, .load])).map fun run => run.settled.isSome) = some true := by decide +kernel
  obtain ⟨run, hrun, hsettled⟩ := map_eq_some_iff.1 hrun
  have hreach := Reaches.of_runChecked (fun _ _ => allowed_of_allowedStep) hrun
  exact ⟨run, hsettled, hreach, saves_are_durable hreach⟩

/-- A fresh census on the files of an older one, whose generation stays ahead. -/
def olderLineage : List SaveAction :=
  [.startFresh] ++ savedActions ++ savedActions ++ [.crash, .startFresh] ++ savedActions

/-- A file of the last generation. -/
def lastGeneration : SaveRun where
  published := fun slot =>
    if slot then some ((fresh smallConfig smallConfig_valid).serialize zeroSha256 kMaximumU64)
    else none

/-- Its slot is removed by the next save. -/
def lastSlot : List SaveAction :=
  [.load] ++ savedActions ++ savedActions.take 6 ++ [.crash]

theorem older_lineage_and_last_generation :
    (∃ run, runActions (step zeroSha256 smallConfig smallConfig_valid) noFiles olderLineage =
      some run ∧ ¬ Durable zeroSha256 smallConfig smallConfig_valid run) ∧
    ∃ run, runActions (step zeroSha256 smallConfig smallConfig_valid) lastGeneration lastSlot =
      some run ∧ ¬ Durable zeroSha256 smallConfig smallConfig_valid run := by
  constructor
  · have hrun : ((runActions (step zeroSha256 smallConfig smallConfig_valid) noFiles
        olderLineage).map fun run => (run.settled.map (·.generation),
          (RouteCensus.load zeroSha256 smallConfig smallConfig_valid
            run.published).toOption.map (·.1.generation), run.attempt.isNone)) =
        some (some 1, some 2, true) := by decide +kernel
    obtain ⟨run, hrun, hresult⟩ := map_eq_some_iff.1 hrun
    simp only [Prod.mk.injEq] at hresult
    obtain ⟨hsettled, hload, hattempt⟩ := hresult
    refine ⟨run, hrun, ?_⟩
    intro hdurable
    obtain ⟨settled, hsettled, hgeneration⟩ := map_eq_some_iff.1 hsettled
    obtain ⟨census, changed, hok, rfl | hattempted⟩ := hdurable settled hsettled
    · rw [hok] at hload
      have htwo : census.generation = 2 := Option.some.inj hload
      rw [htwo] at hgeneration
      exact absurd hgeneration (by decide)
    · rw [hattempted] at hattempt
      cases hattempt
  · have hrun : ((runActions (step zeroSha256 smallConfig smallConfig_valid) lastGeneration
        lastSlot).map fun run => (run.settled.isSome,
          (RouteCensus.load zeroSha256 smallConfig smallConfig_valid
            run.published).toOption.isNone)) = some (true, true) := by decide +kernel
    obtain ⟨run, hrun, hresult⟩ := map_eq_some_iff.1 hrun
    simp only [Prod.mk.injEq] at hresult
    obtain ⟨hsettled, hload⟩ := hresult
    refine ⟨run, hrun, ?_⟩
    intro hdurable
    obtain ⟨settled, hsettled⟩ := isSome_iff_exists.1 hsettled
    obtain ⟨census, changed, hok, -⟩ := hdurable settled hsettled
    rw [hok] at hload
    cases hload

end SaveRun

end QuantumLlm.Runtime.RouteCensus
