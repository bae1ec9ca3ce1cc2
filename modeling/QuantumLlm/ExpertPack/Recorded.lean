import QuantumLlm.ExpertPack.Reclaim

/-!
# What is committed

A tensor is committed when every record that reads it is in its pack and in the
index: the index of the journal, or of the manifest once the marker is there.
-/

namespace QuantumLlm.ExpertPack

open List

variable {Tensor Expert Fields Rest : Type}
  {compilation : Compilation Tensor Expert Fields Rest}

open Compilation

namespace Compilation

theorem Tiled.le_limit {α : Type} {offset storedBytes : α → Nat} {cursor limit : Nat}
    {entries : List α} (h : Tiled offset storedBytes cursor entries limit) :
    cursor ≤ limit ∧ ∀ entry ∈ entries, offset entry + storedBytes entry ≤ limit := by
  induction entries generalizing cursor with
  | nil => exact ⟨Nat.le_of_eq h, by simp⟩
  | cons first rest ih =>
    obtain ⟨hfirst, hrest⟩ := h
    obtain ⟨hle, hothers⟩ := ih hrest
    refine ⟨by omega, ?_⟩
    intro entry hentry
    rcases mem_cons.1 hentry with rfl | hlater
    · omega
    · exact hothers entry hlater

theorem Packed.of_expertPacks {fuel : Nat} {packs later : List (ExpertRecords Fields)}
    {remaining : List Expert} (h : compilation.Packed packs remaining)
    (hlater : compilation.expertPacks fuel packs.length remaining = .ok later) :
    compilation.Packed (packs ++ later) [] := by
  induction fuel generalizing packs later remaining with
  | zero =>
    cases remaining with
    | nil =>
      cases hlater
      rwa [append_nil]
    | cons expert remaining => cases hlater
  | succ fuel ih =>
    cases remaining with
    | nil =>
      cases hlater
      rwa [append_nil]
    | cons expert remaining =>
      obtain ⟨⟨pack, rest⟩, hfill, hlater⟩ := bind_eq_ok hlater
      obtain ⟨others, hothers, hlater⟩ := bind_eq_ok hlater
      cases hlater
      have hnext := @ih (packs ++ [pack]) others rest (h.next hfill) (by
        rw [length_append, length_singleton]
        exact hothers)
      rwa [append_assoc, singleton_append] at hnext

end Compilation

theorem Prepared.packed {plan : Plan Fields Rest} (h : Prepared compilation plan) :
    compilation.Packed plan.packs [] := by
  have hpacked := (Packed.initial compilation).of_expertPacks h.packs
  rwa [nil_append] at hpacked

namespace Reclaim

variable {sharding : Sharding compilation}

/-- The dense and the expert records that are committed. -/
def index (written : Directory Fields Rest) :
    List (DenseEntry Fields) × List (ExpertEntry Fields) :=
  if (written.get (.final .completed)).isSome then
    match written.get (.final .manifest) with
    | some (.manifest manifest) => (manifest.body.tensors, manifest.body.experts)
    | _ => ([], [])
  else
    match written.get (.final .state) with
    | some (.state state) => (state.dense, state.experts)
    | _ => ([], [])

/-- The bytes of a record are in its pack. -/
def InPack (written : Directory Fields Rest) (pack : Option Nat) (offset storedBytes : Nat) :
    Prop :=
  ∃ bytes, payload written (packFile pack) = some bytes ∧ offset + storedBytes ≤ bytes.length

/-- What an index has to list for a tensor. -/
structure Listed (sharding : Sharding compilation) (dense : List (DenseEntry Fields))
    (experts : List (ExpertEntry Fields)) (name : String) : Prop where
  dense : ∀ tensor ∈ compilation.dense, name ∈ sharding.denseTensors tensor →
    ∃ entry ∈ dense, entry.name = compilation.denseName tensor
  experts : ∀ expert ∈ compilation.experts, name ∈ sharding.reads expert →
    ∃ entry ∈ experts, (entry.layer, entry.expert) = compilation.expertKey expert

theorem Listed.mono {dense : List (DenseEntry Fields)} {experts experts' : List (ExpertEntry Fields)}
    {name : String} (h : Listed sharding dense experts name) (hextends : experts <+: experts') :
    Listed sharding dense experts' name where
  dense := h.dense
  experts := by
    intro expert hexpert hreads
    obtain ⟨entry, hentry, hkey⟩ := h.experts expert hexpert hreads
    exact ⟨entry, hextends.subset hentry, hkey⟩

/-- Every record of the index that reads the tensor is in its pack, and there is one. -/
structure RecordedIn (sharding : Sharding compilation) (written : Directory Fields Rest)
    (name : String) : Prop where
  listed : Listed sharding (index written).1 (index written).2 name
  dense : ∀ entry ∈ (index written).1, InPack written none entry.offset entry.storedBytes
  experts : ∀ entry ∈ (index written).2,
    InPack written (some entry.pack) entry.offset entry.storedBytes
  claimed : (∃ tensor ∈ compilation.dense, name ∈ sharding.denseTensors tensor) ∨
    ∃ expert ∈ compilation.experts, name ∈ sharding.reads expert

/-- The tensor is committed. -/
def Recorded (sharding : Sharding compilation) (disk : Disk Fields Rest) (name : String) : Prop :=
  ∃ written, (disk.unfinished = some written ∨ disk.output = some written) ∧
    RecordedIn sharding written name

variable {written : Directory Fields Rest} {state : State Fields} {name : String}

theorem index_of_resumable (h : Resumable compilation written state) :
    index written = (state.dense, state.experts) := by
  rw [index, h.incomplete, h.journal]
  rfl

theorem recorded_of_resumable (h : Resumable compilation written state)
    (hname : name ∈ sharding.tensors) (hlisted : Listed sharding state.dense state.experts name) :
    Recorded sharding ⟨some written, none⟩ name := by
  refine ⟨written, .inl rfl, ?_⟩
  have hindex := index_of_resumable h
  refine ⟨by rwa [hindex], ?_, ?_, sharding.claimed name hname⟩
  · rw [hindex]
    intro entry hentry
    rcases h.dense with hnil | ⟨pack, hwrite, hentries, hbytes, -⟩
    · rw [hnil] at hentry
      cases hentry
    · have hsound := writeDenseRecords_sound (DenseRecords.Sound.initial compilation) hwrite
      refine ⟨pack.bytes, by rw [payload, packFile, hbytes], ?_⟩
      rw [hentries] at hentry
      exact hsound.tiled.le_limit.2 entry hentry
  · rw [hindex]
    intro entry hentry
    obtain ⟨packs, remaining, hpacked, hentries, hbytes⟩ := h.experts
    rw [hentries] at hentry
    obtain ⟨pack, hpack, hmem⟩ := mem_flatMap.1 hentry
    obtain ⟨number, hnumber⟩ := mem_iff_getElem?.1 hpack
    obtain ⟨added, -, hsound⟩ := hpacked.sound number pack hnumber
    rw [hsound.numbered entry hmem]
    exact ⟨pack.bytes, by rw [payload, packFile, hbytes number pack hnumber],
      hsound.tiled.le_limit.2 entry hmem⟩

theorem listed_of_packed {dense : DenseRecords Fields} {packs : List (ExpertRecords Fields)}
    {remaining : List Expert}
    (hdense : compilation.writeDenseRecords {} compilation.dense = .ok dense)
    (hpacked : compilation.Packed packs remaining)
    (hconsumed : ∀ expert ∈ remaining, name ∉ sharding.reads expert) :
    Listed sharding dense.entries (packs.flatMap fun pack => pack.entries) name where
  dense := by
    intro tensor htensor _
    have hnames := (writeDenseRecords_sound (DenseRecords.Sound.initial compilation) hdense).names
    have hmem : compilation.denseName tensor ∈ dense.entries.map fun entry => entry.name := by
      rw [hnames]
      exact mem_map_of_mem htensor
    exact mem_map.1 hmem
  experts := by
    intro expert hexpert hreads
    obtain ⟨first, hsplit, hkeys⟩ := hpacked.split
    rw [hsplit] at hexpert
    rcases mem_append.1 hexpert with hfirst | hremaining
    · have hmem : compilation.expertKey expert ∈
          (packs.flatMap fun pack => pack.entries).map fun entry => (entry.layer, entry.expert) := by
        rw [hkeys]
        exact mem_map_of_mem hfirst
      exact mem_map.1 hmem
    · exact absurd hreads (hconsumed expert hremaining)

theorem recordedIn_of_stored {plan : Plan Fields Rest} (h : Prepared compilation plan)
    (hstored : plan.Stored written) (hname : name ∈ sharding.tensors) :
    RecordedIn sharding written name := by
  obtain ⟨report, -, hbuild⟩ := h.manifest
  obtain ⟨htensors, hexperts⟩ := buildManifest_spec (hbuild written hstored.payload_eq)
  have hmanifest : written.get (.final .manifest) = some (.manifest plan.manifest) :=
    hstored.get_eq (by simp)
  have hcompleted : written.get (.final .completed) = some (.marker plan.marker) :=
    hstored.get_eq (by simp)
  have hindex : index written = (plan.dense.entries, plan.entries) := by
    rw [index, hcompleted, hmanifest]
    simp only [Option.isSome_some, if_true, htensors, hexperts]
  have hpacked := h.packed
  refine ⟨?_, ?_, ?_, sharding.claimed name hname⟩
  · rw [hindex]
    exact listed_of_packed h.dense hpacked fun expert hexpert => absurd hexpert not_mem_nil
  · rw [hindex]
    intro entry hentry
    have hsound := writeDenseRecords_sound (DenseRecords.Sound.initial compilation) h.dense
    exact ⟨plan.dense.bytes, hstored.payload_eq none, hsound.tiled.le_limit.2 entry hentry⟩
  · rw [hindex]
    intro entry hentry
    obtain ⟨pack, hpack, hmem⟩ := mem_flatMap.1 hentry
    obtain ⟨number, hnumber⟩ := mem_iff_getElem?.1 hpack
    obtain ⟨added, -, hsound⟩ := hpacked.sound number pack hnumber
    rw [hsound.numbered entry hmem]
    refine ⟨pack.bytes, ?_, hsound.tiled.le_limit.2 entry hmem⟩
    rw [hstored.payload_eq, Plan.payload, hnumber]
    rfl

/-- The state file, where there is one, is of a kind. -/
def StateIs (allowed : State Fields → Prop) (disk : Disk Fields Rest) : Prop :=
  ∀ written state, disk.unfinished = some written →
    written.get (.final .state) = some (.state state) → allowed state

theorem recorded_of_recoverable {disk : Disk Fields Rest} (h : Recoverable compilation disk)
    (hname : name ∈ sharding.tensors)
    (hstate : StateIs (fun state => Listed sharding state.dense state.experts name) disk) :
    Recorded sharding disk name := by
  cases h with
  | @journaled written state hjournal =>
    exact recorded_of_resumable hjournal hname (hstate written state rfl hjournal.journal)
  | @complete written hcomplete =>
    obtain ⟨plan, hprepared, hstored⟩ := hcomplete
    exact ⟨written, .inl rfl, recordedIn_of_stored hprepared hstored hname⟩
  | @published written plan hplan hstored _ =>
    exact ⟨written, .inr rfl, recordedIn_of_stored hplan.toPrepared hstored hname⟩

end Reclaim

end QuantumLlm.ExpertPack
