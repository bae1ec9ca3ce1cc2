import QuantumLlm.Lib.Interleaving
import QuantumLlm.Lib.Run
import Mathlib.Logic.Function.Basic

/-!
# Pins of the device expert directory

The device's directory of resident experts, as interleaved atomic steps: threads
that pin entries and release them, one retirer, and the host that publishes an
entry where there is none.
-/

namespace QuantumLlm.Runtime.ExpertDirectory

open List

inductive DeviceExpertState
  | absent | ready | retiring
  deriving DecidableEq

/-- The addresses of an entry. -/
structure DevicePointers where
  gateUp : UInt64 := 0
  gateUpScales : UInt64 := 0
  down : UInt64 := 0
  downScales : UInt64 := 0
  w1Fp4 : UInt64 := 0
  w1Ue8m0 : UInt64 := 0
  w3Fp4 : UInt64 := 0
  w3Ue8m0 : UInt64 := 0
  w2Fp4 : UInt64 := 0
  w2Ue8m0 : UInt64 := 0
  deriving DecidableEq

structure DeviceExpertEntry where
  pointers : DevicePointers := {}
  format : UInt32 := 0
  generation : UInt32 := 0
  state : DeviceExpertState := .absent
  deviceReferences : UInt32 := 0
  deriving DecidableEq

/-- Where `try_retire_entry` stands. -/
inductive Retirer (κ : Type)
  | idle (retired : Option Bool)
  | checking (entry : κ)
  | clearing (entry : κ)
  | cleared (entry : κ)
  | restoring (entry : κ)
  deriving DecidableEq

/-- Where a thread of `pin_directory_entries` stands, and then its pin; the pin
carries the addresses that the entry had when it was kept. -/
inductive PinPhase (κ : Type)
  | idle
  | sawReady (entry : κ)
  | counted (entry : κ)
  | failed (entry : κ)
  | pinned (entry : κ) (pointers : DevicePointers)
  deriving DecidableEq

structure Directory (κ : Type) where
  entries : κ → DeviceExpertEntry := fun _ => {}
  generations : κ → UInt32 := fun _ => 0
  retirer : Retirer κ := .idle none

variable {κ : Type} [DecidableEq κ]

def Directory.update (directory : Directory κ) (entry : κ)
    (change : DeviceExpertEntry → DeviceExpertEntry) : Directory κ :=
  { directory with
    entries := Function.update directory.entries entry (change (directory.entries entry)) }

namespace DeviceExpertEntry

variable (entry : DeviceExpertEntry)

/-- `atomicAdd` of the reference count. -/
def addReference : DeviceExpertEntry :=
  { entry with deviceReferences := entry.deviceReferences + 1 }

/-- `atomicSub` of the reference count. -/
def subReference : DeviceExpertEntry :=
  { entry with deviceReferences := entry.deviceReferences - 1 }

def withState (state : DeviceExpertState) : DeviceExpertEntry := { entry with state }

/-- The four addresses that `try_retire_entry` sets to null. -/
def clearPointers : DeviceExpertEntry :=
  { entry with
    pointers := { entry.pointers with gateUp := 0, gateUpScales := 0, down := 0, downScales := 0 } }

end DeviceExpertEntry

/-- The next atomic step of a thread; `choice` is the entry that an idle one turns to. -/
def pinStep (directory : Directory κ) (phase : PinPhase κ) (choice : κ) :
    Option (Directory κ × PinPhase κ) :=
  match phase with
  | .idle =>
    if (directory.entries choice).state = .ready then some (directory, .sawReady choice)
    else some (directory, .idle)
  | .sawReady entry => some (directory.update entry DeviceExpertEntry.addReference, .counted entry)
  | .counted entry =>
    if (directory.entries entry).state = .ready then
      some (directory, .pinned entry (directory.entries entry).pointers)
    else some (directory, .failed entry)
  | .failed entry => some (directory.update entry DeviceExpertEntry.subReference, .idle)
  | .pinned entry _ => some (directory.update entry DeviceExpertEntry.subReference, .idle)

/-- The compare-and-swap of `try_retire_entry`. -/
def beginRetire (directory : Directory κ) (entry : κ) : Directory κ :=
  match (directory.entries entry).state with
  | .ready =>
    { directory.update entry fun found => found.withState .retiring with
      retirer := .checking entry }
  | .absent => { directory with retirer := .idle (some true) }
  | .retiring => { directory with retirer := .idle (some false) }

/-- The retirer's next step behind its compare-and-swap. -/
def retireStep (directory : Directory κ) : Option (Directory κ) :=
  match directory.retirer with
  | .idle _ => none
  | .checking entry =>
    if (directory.entries entry).deviceReferences = 0 then
      some { directory with retirer := .clearing entry }
    else some { directory with retirer := .restoring entry }
  | .clearing entry =>
    some { directory.update entry DeviceExpertEntry.clearPointers with retirer := .cleared entry }
  | .cleared entry =>
    some { directory.update entry fun found => found.withState .absent with
      retirer := .idle (some true) }
  | .restoring entry =>
    some { directory.update entry fun found => found.withState .ready with
      retirer := .idle (some false) }

/-- `CudaExpertDirectory::publish`: the whole entry is overwritten. -/
def publish (directory : Directory κ) (entry : κ) (pointers : DevicePointers) (format : UInt32) :
    Directory κ :=
  { directory.update entry fun _ =>
      { pointers
        format
        generation := directory.generations entry + 1
        state := .ready
        deviceReferences := 0 } with
    generations := Function.update directory.generations entry (directory.generations entry + 1) }

inductive DirectoryEvent (κ : Type)
  | pin (thread : Nat) (choice : κ)
  | beginRetire (entry : κ)
  | retire
  | publish (entry : κ) (pointers : DevicePointers) (format : UInt32)

/-- One atomic step. There is one retirer, and an entry is published only where it is absent. -/
def directoryStep (system : Interleaved (Directory κ) (PinPhase κ)) :
    DirectoryEvent κ → Option (Interleaved (Directory κ) (PinPhase κ))
  | .pin thread choice => system.turn pinStep thread choice
  | .beginRetire entry =>
    match system.shared.retirer with
    | .idle _ => some { system with shared := beginRetire system.shared entry }
    | _ => none
  | .retire => (retireStep system.shared).map fun shared => { system with shared }
  | .publish entry pointers format =>
    if (system.shared.entries entry).state = .absent then
      some { system with shared := publish system.shared entry pointers format }
    else none

abbrev System (κ : Type) := Interleaved (Directory κ) (PinPhase κ)

/-- The reference of a thread that has counted one and not given it back. -/
def held (entry : κ) : PinPhase κ → Nat
  | .counted other | .failed other | .pinned other _ => if other = entry then 1 else 0
  | .idle | .sawReady _ => 0

/-- Pins and pin attempts on an entry that hold a reference. -/
def references (system : System κ) (entry : κ) : Nat :=
  Interleaved.total (held entry) system.threads

/-- The steps of the retirer alone. -/
def DirectoryEvent.Retires : DirectoryEvent κ → Prop
  | .beginRetire _ | .retire => True
  | .pin .. | .publish .. => False

/-- What the directory guarantees in a state. -/
structure Sound (system : System κ) : Prop where
  intact : ∀ entry pointers, PinPhase.pinned entry pointers ∈ system.threads →
    ((system.shared.entries entry).state = .ready ∨
      (system.shared.entries entry).state = .retiring) ∧
    (system.shared.entries entry).pointers = pointers
  counted : ∀ entry,
    (system.shared.entries entry).deviceReferences.toNat = references system entry
  neverBelowZero : ∀ entry, (PinPhase.failed entry ∈ system.threads ∨
      ∃ pointers, PinPhase.pinned entry pointers ∈ system.threads) →
    (system.shared.entries entry).deviceReferences ≠ 0
  retirable : ∀ entry, references system entry = 0 → ∃ events system',
    (∀ event ∈ events, event.Retires) ∧ runActions directoryStep system events = some system' ∧
    (system'.shared.entries entry).state = .absent ∧ system'.shared.retirer = .idle (some true)

/-- An entry is published only while no thread holds a reference of it, and there are
fewer references than the counter can hold. -/
def Allowed (system : System κ) : DirectoryEvent κ → Prop
  | .publish entry _ _ => (system.shared.entries entry).deviceReferences = 0
  | .pin thread _ => ∀ entry, system.threads[thread]? = some (.sawReady entry) →
      (system.shared.entries entry).deviceReferences ≠ 0xffffffff
  | .beginRetire _ | .retire => True

/-- The entry that the retirer has in its hands. -/
def Retirer.entry? : Retirer κ → Option κ
  | .idle _ => none
  | .checking entry | .clearing entry | .cleared entry | .restoring entry => some entry

structure Invariant (system : System κ) : Prop where
  counted : ∀ entry,
    (system.shared.entries entry).deviceReferences.toNat = references system entry
  intact : ∀ entry pointers, PinPhase.pinned entry pointers ∈ system.threads →
    (system.shared.entries entry).state ≠ .absent ∧
    (system.shared.entries entry).pointers = pointers
  retiring : ∀ entry, (system.shared.entries entry).state = .retiring ↔
    system.shared.retirer.entry? = some entry
  unpinned : ∀ entry, system.shared.retirer = .clearing entry ∨
      system.shared.retirer = .cleared entry →
    ∀ pointers, PinPhase.pinned entry pointers ∉ system.threads

theorem update_entries (directory : Directory κ) (entry other : κ)
    (change : DeviceExpertEntry → DeviceExpertEntry) :
    (directory.update entry change).entries other =
      if other = entry then change (directory.entries entry) else directory.entries other := by
  exact Function.update_apply directory.entries entry _ other

theorem initial_invariant (threads : Nat) :
    Invariant ⟨{}, List.replicate threads (PinPhase.idle : PinPhase κ)⟩ where
  counted _ := by simp [references, Interleaved.total, held]
  intact _ _ h := by cases eq_of_mem_replicate h
  retiring _ := iff_of_false (by simp) (by simp [Retirer.entry?])
  unpinned _ _ _ h := by cases eq_of_mem_replicate h

variable {entry : DeviceExpertEntry} {directory directory' : Directory κ} {retired : Option Bool}

theorem addReference_toNat (h : entry.deviceReferences ≠ 0xffffffff) :
    entry.addReference.deviceReferences.toNat = entry.deviceReferences.toNat + 1 := by
  have hlt := entry.deviceReferences.toNat_lt
  have hne : entry.deviceReferences.toNat ≠ 0xffffffff := fun heq => h (UInt32.toNat_inj.1 heq)
  have hone : (1 : UInt32).toNat = 1 := rfl
  rw [DeviceExpertEntry.addReference, UInt32.toNat_add, hone, Nat.mod_eq_of_lt (by omega)]

theorem subReference_toNat (h : 1 ≤ entry.deviceReferences.toNat) :
    entry.subReference.deviceReferences.toNat = entry.deviceReferences.toNat - 1 := by
  rw [DeviceExpertEntry.subReference, UInt32.toNat_sub_of_le]
  · rfl
  · exact UInt32.le_iff_toNat_le.2 h

section

variable {directory shared' : Directory κ} {before after : List (PinPhase κ)}
  {phase phase' : PinPhase κ} {choice : κ}

theorem references_split (directory : Directory κ) (entry : κ) : references
    ⟨directory, before ++ phase :: after⟩ entry = held entry phase +
      (Interleaved.total (held entry) before + Interleaved.total (held entry) after) :=
  Interleaved.total_split (held entry) before phase after

theorem Invariant.one_le (h : Invariant ⟨directory, before ++ phase :: after⟩) {entry : κ}
    (hphase : held entry phase = 1) : 1 ≤ (directory.entries entry).deviceReferences.toNat := by
  have hcounted := h.counted entry
  rw [references_split, hphase] at hcounted
  change (directory.entries entry).deviceReferences.toNat = _ at hcounted
  omega

section

variable (h : Invariant ⟨directory, before ++ phase :: after⟩)

include h

theorem Invariant.move (hheld : ∀ entry, held entry phase' = held entry phase)
    (hpinned : ∀ entry pointers, phase' = .pinned entry pointers →
      (directory.entries entry).state = .ready ∧ (directory.entries entry).pointers = pointers) :
    Invariant ⟨directory, before ++ phase' :: after⟩ where
  counted entry := by
    have hcounted := h.counted entry
    rw [references_split] at hcounted ⊢
    rw [hheld]
    exact hcounted
  intact entry pointers hmem := by
    rcases mem_append.1 hmem with hmem | hmem
    · exact h.intact entry pointers (by simp [hmem])
    · rcases mem_cons.1 hmem with heq | hmem
      · obtain ⟨hready, hpointers⟩ := hpinned entry pointers heq.symm
        exact ⟨by rw [hready]; decide, hpointers⟩
      · exact h.intact entry pointers (by simp [hmem])
  retiring := h.retiring
  unpinned entry hretirer pointers hmem := by
    rcases mem_append.1 hmem with hmem | hmem
    · exact h.unpinned entry hretirer pointers (by simp [hmem])
    · rcases mem_cons.1 hmem with heq | hmem
      · have hready := (hpinned entry pointers heq.symm).1
        have hretiring := (h.retiring entry).2 (by rcases hretirer with h | h <;> rw [h] <;> rfl)
        rw [hready] at hretiring
        cases hretiring
      · exact h.unpinned entry hretirer pointers (by simp [hmem])

theorem Invariant.count {entry : κ} {change : DeviceExpertEntry → DeviceExpertEntry}
    (hstate : (change (directory.entries entry)).state = (directory.entries entry).state)
    (hpointers : (change (directory.entries entry)).pointers = (directory.entries entry).pointers)
    (hcount : (change (directory.entries entry)).deviceReferences.toNat + held entry phase =
      (directory.entries entry).deviceReferences.toNat + held entry phase')
    (hother : ∀ other, other ≠ entry → held other phase' = held other phase)
    (hpinned : ∀ other pointers, phase' ≠ .pinned other pointers) :
    Invariant ⟨directory.update entry change, before ++ phase' :: after⟩ := by
  have hmem : ∀ {other pointers}, PinPhase.pinned other pointers ∈ before ++ phase' :: after →
      PinPhase.pinned other pointers ∈ before ++ phase :: after := by
    intro other pointers hmem
    rcases mem_append.1 hmem with hmem | hmem
    · simp [hmem]
    · rcases mem_cons.1 hmem with heq | hmem
      · exact absurd heq.symm (hpinned other pointers)
      · simp [hmem]
  have hsame : ∀ other, ((directory.update entry change).entries other).state =
      (directory.entries other).state ∧ ((directory.update entry change).entries other).pointers =
        (directory.entries other).pointers := by
    intro other
    rw [update_entries]
    by_cases heq : other = entry
    · rw [if_pos heq, heq]
      exact ⟨hstate, hpointers⟩
    · rw [if_neg heq]
      exact ⟨rfl, rfl⟩
  refine ⟨fun other => ?_, fun other pointers hpin => ?_, fun other => ?_, fun other hretirer pointers
    hpin => h.unpinned other hretirer pointers (hmem hpin)⟩
  · have hcounted := h.counted other
    rw [references_split] at hcounted ⊢
    change (directory.entries other).deviceReferences.toNat = _ at hcounted
    rw [update_entries]
    by_cases heq : other = entry
    · rw [if_pos heq]
      rw [heq] at hcounted ⊢
      omega
    · rw [if_neg heq, hother other heq]
      exact hcounted
  · obtain ⟨hstateOther, hpointersOther⟩ := hsame other
    have hintact := h.intact other pointers (hmem hpin)
    exact ⟨hstateOther.symm ▸ hintact.1, hpointersOther.trans hintact.2⟩
  · change ((directory.update entry change).entries other).state = .retiring ↔ _
    rw [(hsame other).1]
    exact h.retiring other

theorem Invariant.turn (hroom : ∀ entry, phase = .sawReady entry →
      (directory.entries entry).deviceReferences ≠ 0xffffffff)
    (hstep : pinStep directory phase choice = some (shared', phase')) :
    Invariant ⟨shared', before ++ phase' :: after⟩ := by
  cases phase with
  | idle =>
    rw [pinStep] at hstep
    split at hstep
    next =>
      cases hstep
      exact h.move (fun _ => rfl) (nofun)
    next =>
      cases hstep
      exact h
  | sawReady entry =>
    cases hstep
    refine h.count rfl rfl ?_ (fun other hne => ?_) (nofun)
    · rw [addReference_toNat (hroom entry rfl)]
      simp [held]
    · simp [held, Ne.symm hne]
  | counted entry =>
    rw [pinStep] at hstep
    split at hstep
    next hready =>
      cases hstep
      refine h.move (fun _ => rfl) ?_
      rintro _ _ ⟨⟩
      exact ⟨hready, rfl⟩
    next =>
      cases hstep
      exact h.move (fun _ => rfl) (nofun)
  | failed entry =>
    cases hstep
    have hone := @Invariant.one_le _ _ _ _ _ _ h entry (by simp [held])
    refine h.count rfl rfl ?_ (fun other hne => ?_) (nofun)
    · rw [subReference_toNat hone]
      simp [held]
      omega
    · simp [held, Ne.symm hne]
  | pinned entry pointers =>
    cases hstep
    have hone := @Invariant.one_le _ _ _ _ _ _ h entry (by simp [held])
    refine h.count rfl rfl ?_ (fun other hne => ?_) (nofun)
    · rw [subReference_toNat hone]
      simp [held]
      omega
    · simp [held, Ne.symm hne]

end

end

section

variable {directory directory' : Directory κ} {threads : List (PinPhase κ)}

variable {entry : κ}

section

variable (h : Invariant ⟨directory, threads⟩)

include h

theorem Invariant.no_pin
    (hzero : (directory.entries entry).deviceReferences = 0) (pointers : DevicePointers) :
    PinPhase.pinned entry pointers ∉ threads := by
  intro hmem
  have hcounted := h.counted entry
  have hle := Interleaved.weight_le_total (held entry) hmem
  rw [hzero] at hcounted
  simp only [references] at hcounted
  simp only [held, if_true] at hle
  simp at hcounted
  omega

theorem Invariant.change (change : DeviceExpertEntry → DeviceExpertEntry)
    (hentries : directory'.entries = (directory.update entry change).entries)
    (hcount : (change (directory.entries entry)).deviceReferences =
      (directory.entries entry).deviceReferences)
    (hpins : ∀ pointers, PinPhase.pinned entry pointers ∈ threads →
      (change (directory.entries entry)).state ≠ .absent ∧
      (change (directory.entries entry)).pointers = (directory.entries entry).pointers)
    (hmine : (change (directory.entries entry)).state = .retiring ↔
      directory'.retirer.entry? = some entry)
    (hothers : ∀ other, other ≠ entry →
      (directory.retirer.entry? = some other ↔ directory'.retirer.entry? = some other))
    (hclear : ∀ other, directory'.retirer = .clearing other ∨ directory'.retirer = .cleared other →
      ∀ pointers, PinPhase.pinned other pointers ∉ threads) :
    Invariant ⟨directory', threads⟩ := by
  have hat : directory'.entries entry = change (directory.entries entry) := by
    rw [hentries, update_entries, if_pos rfl]
  have helse : ∀ other, other ≠ entry → directory'.entries other = directory.entries other := by
    intro other hne
    rw [hentries, update_entries, if_neg hne]
  refine ⟨fun other => ?_, fun other pointers hpin => ?_, fun other => ?_, hclear⟩
  · change (directory'.entries other).deviceReferences.toNat = references ⟨directory, threads⟩ other
    rw [← h.counted other]
    by_cases heq : other = entry
    · rw [heq, hat, hcount]
    · rw [helse other heq]
  · change (directory'.entries other).state ≠ .absent ∧ (directory'.entries other).pointers = pointers
    by_cases heq : other = entry
    · subst heq
      have hkept := hpins pointers hpin
      rw [hat]
      exact ⟨hkept.1, hkept.2.trans (h.intact other pointers hpin).2⟩
    · rw [helse other heq]
      exact h.intact other pointers hpin
  · change (directory'.entries other).state = .retiring ↔ directory'.retirer.entry? = some other
    by_cases heq : other = entry
    · rw [heq, hat]
      exact hmine
    · rw [helse other heq, ← hothers other heq]
      exact h.retiring other

theorem Invariant.beginRetire (hidle : directory.retirer.entry? = none) (entry : κ) :
    Invariant ⟨beginRetire directory entry, threads⟩ := by
  have hretiring := h.retiring
  rw [ExpertDirectory.beginRetire]
  split
  next hready =>
    refine h.change (fun found => found.withState .retiring) rfl rfl
      (fun pointers _ => ⟨by simp [DeviceExpertEntry.withState], rfl⟩) (iff_of_true rfl rfl) (fun other hne => ?_) (fun other hother => ?_)
    · rw [hidle]
      simp [Retirer.entry?, Ne.symm hne]
    · rcases hother with hother | hother <;> cases hother
  all_goals
    refine ⟨h.counted, h.intact, fun other => ?_, fun other hother => ?_⟩
    · rw [hretiring other]
      rw [hidle]
      simp [Retirer.entry?]
    · rcases hother with hother | hother <;> cases hother

theorem Invariant.retireStep
    (hstep : retireStep directory = some directory') : Invariant ⟨directory', threads⟩ := by
  have hmine : ∀ {entry}, directory.retirer.entry? = some entry →
      (directory.entries entry).state = .retiring := fun {entry} => (h.retiring entry).2
  rw [ExpertDirectory.retireStep] at hstep
  split at hstep
  next => cases hstep
  next entry hretirer =>
    split at hstep <;> cases hstep
    next hzero =>
      refine ⟨h.counted, h.intact, fun other => ?_, fun other hother => ?_⟩
      · rw [h.retiring other, hretirer]
        rfl
      · rcases hother with hother | hother <;> cases hother
        exact h.no_pin hzero
    next =>
      refine ⟨h.counted, h.intact, fun other => ?_, fun other hother => ?_⟩
      · rw [h.retiring other, hretirer]
        rfl
      · rcases hother with hother | hother <;> cases hother
  next entry hretirer =>
    cases hstep
    have hnone := h.unpinned entry (.inl hretirer)
    have hstate : (directory.entries entry).state = .retiring := hmine (by rw [hretirer]; rfl)
    refine h.change DeviceExpertEntry.clearPointers rfl rfl
      (fun pointers hpin => absurd hpin (hnone pointers)) (iff_of_true hstate rfl) (fun other _ => ?_) (fun other hother => ?_)
    · rw [hretirer]
      rfl
    · rcases hother with hother | hother <;> cases hother
      exact hnone
  next entry hretirer =>
    cases hstep
    have hnone := h.unpinned entry (.inr hretirer)
    refine h.change (fun found => found.withState .absent) rfl rfl
      (fun pointers hpin => absurd hpin (hnone pointers))
      (by simp [DeviceExpertEntry.withState, Retirer.entry?]) (fun other hne => ?_)
      (fun other hother => ?_)
    · simp [hretirer, Retirer.entry?, Ne.symm hne]
    · rcases hother with hother | hother <;> cases hother
  next entry hretirer =>
    cases hstep
    refine h.change (fun found => found.withState .ready) rfl rfl
      (fun pointers _ => ⟨by simp [DeviceExpertEntry.withState], rfl⟩)
      (by simp [DeviceExpertEntry.withState, Retirer.entry?]) (fun other hne => ?_)
      (fun other hother => ?_)
    · simp [hretirer, Retirer.entry?, Ne.symm hne]
    · rcases hother with hother | hother <;> cases hother

theorem Invariant.publish (habsent : (directory.entries entry).state = .absent)
    (hzero : (directory.entries entry).deviceReferences = 0) (pointers : DevicePointers)
    (format : UInt32) : Invariant ⟨publish directory entry pointers format, threads⟩ := by
  have hnone : directory.retirer.entry? ≠ some entry := by
    intro heq
    have hretiring : (directory.entries entry).state = .retiring := (h.retiring entry).2 heq
    rw [habsent] at hretiring
    cases hretiring
  exact h.change (fun _ => _) rfl hzero.symm
    (fun pointers hpin => absurd hpin (h.no_pin hzero pointers))
    (iff_of_false (by simp) hnone) (fun _ _ => Iff.rfl) h.unpinned

end

end

/-- Steps that the retirer still has before it. -/
def Retirer.distance : Retirer κ → Nat
  | .idle _ => 0
  | .cleared _ | .restoring _ => 1
  | .clearing _ => 2
  | .checking _ => 3

theorem retireStep_shorter (h : retireStep directory = some directory') :
    directory'.retirer.distance < directory.retirer.distance := by
  rw [retireStep] at h
  split at h
  next => cases h
  next entry hretirer => split at h <;> cases h <;> rw [hretirer] <;> simp [Retirer.distance]
  all_goals
    next entry hretirer =>
      cases h
      rw [hretirer]
      simp [Retirer.distance]

theorem retireStep_none (h : retireStep directory = none) :
    ∃ retired, directory.retirer = .idle retired := by
  rw [retireStep] at h
  split at h
  next retired hretirer => exact ⟨retired, hretirer⟩
  next => split at h <;> cases h
  all_goals cases h

theorem retire_eq (h : retireStep directory = some directory') (threads : List (PinPhase κ)) :
    directoryStep ⟨directory, threads⟩ .retire = some ⟨directory', threads⟩ := by
  rw [directoryStep, h]
  rfl

theorem beginRetire_eq
    (h : directory.retirer = .idle retired) (threads : List (PinPhase κ)) (entry : κ) :
    directoryStep ⟨directory, threads⟩ (.beginRetire entry) =
      some ⟨beginRetire directory entry, threads⟩ := by
  rw [directoryStep]
  simp only [h]

theorem Invariant.settles {threads : List (PinPhase κ)}
    (h : Invariant ⟨directory, threads⟩) : ∃ events directory' retired,
    (∀ event ∈ events, DirectoryEvent.Retires event) ∧
    runActions directoryStep ⟨directory, threads⟩ events = some ⟨directory', threads⟩ ∧
    directory'.retirer = .idle retired ∧ Invariant ⟨directory', threads⟩ := by
  induction hdistance : directory.retirer.distance using Nat.strongRecOn generalizing directory with
  | _ distance ih =>
    cases hstep : ExpertDirectory.retireStep directory with
    | none =>
      obtain ⟨retired, hretirer⟩ := retireStep_none hstep
      exact ⟨[], directory, retired, by simp, rfl, hretirer, h⟩
    | some middle =>
      have hshorter := hdistance ▸ retireStep_shorter hstep
      obtain ⟨events, directory', retired, hretires, hrun, hretirer, hinvariant⟩ :=
        ih _ hshorter (h.retireStep hstep) rfl
      refine ⟨.retire :: events, directory', retired, ?_, ?_, hretirer, hinvariant⟩
      · simpa [DirectoryEvent.Retires] using hretires
      · rw [runActions, retire_eq hstep]
        exact hrun

theorem retires_unreferenced (hidle : directory.retirer = .idle retired) {entry : κ}
    (hready : (directory.entries entry).state ≠ .retiring)
    (hzero : (directory.entries entry).deviceReferences = 0) (threads : List (PinPhase κ)) :
    ∃ events directory', (∀ event ∈ events, DirectoryEvent.Retires event) ∧
      runActions directoryStep ⟨directory, threads⟩ events = some ⟨directory', threads⟩ ∧
      (directory'.entries entry).state = .absent ∧ directory'.retirer = .idle (some true) := by
  have hbegin := beginRetire_eq hidle threads entry
  cases hstate : (directory.entries entry).state with
  | retiring => exact absurd hstate hready
  | absent =>
    rw [beginRetire, hstate] at hbegin
    refine ⟨[.beginRetire entry], { directory with retirer := .idle (some true) }, ?_, ?_, hstate, rfl⟩
    · simp [DirectoryEvent.Retires]
    · rw [runActions, hbegin]
      rfl
  | ready =>
    rw [beginRetire, hstate] at hbegin
    let taken := directory.update entry fun found => found.withState .retiring
    let cleared := taken.update entry DeviceExpertEntry.clearPointers
    let absent := cleared.update entry fun found => found.withState .absent
    have hcheck : retireStep { taken with retirer := .checking entry } =
        some { taken with retirer := .clearing entry } := by
      refine if_pos ?_
      rw [update_entries, if_pos rfl]
      exact hzero
    refine ⟨[.beginRetire entry, .retire, .retire, .retire],
      { absent with retirer := .idle (some true) }, ?_, ?_, ?_, rfl⟩
    · simp [DirectoryEvent.Retires]
    · rw [runActions, hbegin]
      simp only [runActions]
      rw [retire_eq hcheck]
      rfl
    · change (absent.entries entry).state = .absent
      rw [update_entries, if_pos rfl]
      rfl

theorem Invariant.sound {system : System κ} (h : Invariant system) : Sound system where
  intact entry pointers hpin := by
    obtain ⟨hstate, hpointers⟩ := h.intact entry pointers hpin
    refine ⟨?_, hpointers⟩
    cases hfound : (system.shared.entries entry).state with
    | absent => exact absurd hfound hstate
    | ready => exact .inl rfl
    | retiring => exact .inr rfl
  counted := h.counted
  neverBelowZero entry hholder hzero := by
    have hcounted := h.counted entry
    have hone : 1 ≤ references system entry := by
      rcases hholder with hmem | ⟨pointers, hmem⟩ <;>
        simpa [held, references] using Interleaved.weight_le_total (held entry) hmem
    rw [hzero] at hcounted
    have hnone : (0 : UInt32).toNat = 0 := rfl
    omega
  retirable entry hnone := by
    obtain ⟨directory, threads⟩ := system
    obtain ⟨first, middle, retired, hfirst, hsettled, hidle, hinvariant⟩ := h.settles
    have hzero : (middle.entries entry).deviceReferences = 0 :=
      UInt32.toNat_inj.1 ((hinvariant.counted entry).trans hnone)
    have hstate : (middle.entries entry).state ≠ .retiring := by
      intro hretiring
      have hentry : middle.retirer.entry? = some entry := (hinvariant.retiring entry).1 hretiring
      rw [hidle] at hentry
      cases hentry
    obtain ⟨second, directory', hsecond, hrun, habsent, hretired⟩ :=
      retires_unreferenced hidle hstate hzero threads
    refine ⟨first ++ second, ⟨directory', threads⟩, fun event hevent => ?_, ?_, habsent, hretired⟩
    · exact (mem_append.1 hevent).elim (hfirst event) (hsecond event)
    · rw [runActions_append hsettled, hrun]

theorem Invariant.step {system system' : System κ} {event : DirectoryEvent κ}
    (h : Invariant system) (hallowed : Allowed system event)
    (hstep : directoryStep system event = some system') : Invariant system' := by
  obtain ⟨directory, threads⟩ := system
  cases event with
  | pin thread choice =>
    obtain ⟨before, phase, after, shared', phase', hthreads, hphase, -, hturn, rfl⟩ :=
      Interleaved.turn_spec hstep
    cases hthreads
    exact h.turn (fun entry heq => hallowed entry (heq ▸ hphase)) hturn
  | beginRetire entry =>
    rw [directoryStep] at hstep
    split at hstep
    next retired hidle =>
      cases hstep
      exact h.beginRetire (by rw [hidle]; rfl) entry
    next => cases hstep
  | retire =>
    obtain ⟨directory', hretire, rfl⟩ := Option.map_eq_some_iff.1 hstep
    exact h.retireStep hretire
  | publish entry pointers format =>
    rw [directoryStep] at hstep
    split at hstep
    next habsent =>
      cases hstep
      exact h.publish habsent hallowed pointers format
    next => cases hstep

theorem publish_references (directory : Directory κ) (entry : κ) (pointers : DevicePointers)
    (format : UInt32) :
    ((publish directory entry pointers format).entries entry).deviceReferences = 0 := by
  simp [publish, Directory.update]

theorem Invariant.breaks {system system' : System κ} {event : DirectoryEvent κ}
    (h : Invariant system) (hnot : ¬ Allowed system event)
    (hstep : directoryStep system event = some system') : ¬ Sound system' := by
  obtain ⟨directory, threads⟩ := system
  intro hsound
  cases event with
  | pin thread choice =>
    simp only [Allowed, not_forall] at hnot
    obtain ⟨entry, hphase, hfull⟩ := hnot
    obtain ⟨before, phase, after, shared', phase', hthreads, hfound, -, hturn, rfl⟩ :=
      Interleaved.turn_spec hstep
    obtain rfl : threads = before ++ phase :: after := hthreads
    cases hphase.symm.trans hfound
    cases hturn
    have hbefore : (directory.entries entry).deviceReferences.toNat = _ :=
      (h.counted entry).trans (references_split directory entry)
    have hafter : ((directory.update entry _).entries entry).deviceReferences.toNat = _ :=
      (hsound.counted entry).trans (references_split _ entry)
    rw [update_entries, if_pos rfl, DeviceExpertEntry.addReference, not_not.1 hfull] at hafter
    simp [held] at hbefore hafter
    omega
  | beginRetire entry => exact hnot trivial
  | retire => exact hnot trivial
  | publish entry pointers format =>
    rw [directoryStep] at hstep
    split at hstep
    next habsent =>
      cases hstep
      have hbefore := h.counted entry
      have hafter := hsound.counted entry
      change ((ExpertDirectory.publish directory entry pointers format).entries entry).deviceReferences.toNat =
        references ⟨directory, threads⟩ entry at hafter
      rw [publish_references, ← hbefore] at hafter
      exact hnot (UInt32.toNat_inj.1 hafter.symm)
    next => cases hstep

/-- For any number of threads and any interleaving, the pins of the directory exclude
retirement, its counters count the pins and attempts, and what is not pinned can be
retired, as long as every entry is published with its counter at zero and no counter
is full: then and only then. -/
theorem pins_exclude_retirement_iff (threads : Nat) (events : List (DirectoryEvent κ)) :
    Along directoryStep Sound ⟨{}, List.replicate threads .idle⟩ events ↔
      StepsAlong directoryStep Allowed ⟨{}, List.replicate threads .idle⟩ events :=
  along_iff_steps (fun _ h => h.sound) Invariant.step Invariant.breaks (initial_invariant threads)
    events

/-- A thread sees the entry ready; it is retired; the thread counts its reference, which the
next publication overwrites, and keeps its pin. -/
def lostReference : List (DirectoryEvent Nat) :=
  [.publish 0 { gateUp := 1 } 1, .pin 0 0, .beginRetire 0, .retire, .retire, .retire, .pin 0 0,
    .publish 0 { gateUp := 2 } 1, .pin 0 0]

/-- The pin is held on a counter of zero, and a second retirement takes its pointers away. -/
theorem lostReference_unpins : ¬ (∀ threads (events : List (DirectoryEvent Nat)),
      Along directoryStep Sound ⟨{}, List.replicate threads .idle⟩ events) ∧
    ∃ system, runActions directoryStep ⟨{}, [PinPhase.idle]⟩
        (lostReference ++ [.beginRetire 0, .retire, .retire, .retire]) = some system ∧
      system.threads = [.pinned 0 { gateUp := 2 }] ∧
      system.shared.entries 0 = { format := 1, generation := 2 } := by
  constructor
  · intro hall
    obtain ⟨system, hrun, hcounter, hreferences⟩ : ∃ system,
        runActions directoryStep ⟨{}, [PinPhase.idle]⟩ lostReference = some system ∧
        (system.shared.entries 0).deviceReferences.toNat = 0 ∧ references system 0 = 1 :=
      ⟨_, rfl, rfl, rfl⟩
    have hcounted := ((hall 1 lostReference).last hrun).counted 0
    omega
  · exact ⟨_, rfl, rfl, by decide⟩

end QuantumLlm.Runtime.ExpertDirectory
