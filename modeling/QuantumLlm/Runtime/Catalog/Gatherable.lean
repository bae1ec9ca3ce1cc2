import QuantumLlm.Lib.Pointwise
import QuantumLlm.Runtime.Catalog.Load
import QuantumLlm.Runtime.Gather.Runs

/-!
# What a catalog admits, a gather reads

A loaded catalog has the record of each row at the place of its layer and expert. Its
records can be gathered exactly when the extent index has no empty extent, none that runs
past the addresses of its source, and no expert whose sizes wrap.
-/

namespace QuantumLlm.Runtime.ExpertCatalog

open Fallible List
open Gather (Readable validateGather validateGather_ok_iff)

variable {config : ExpertCatalogConfig} {extentInput catalogInput : Option String}
  {destination catalog : ExpertCatalog} {selected : ExpertCatalogLayout}
  {extents : List PayloadExtent} {record : PayloadRecord}

/-- A record that gathers into its own size, over every byte of it once. -/
structure Gatherable (record : PayloadRecord) : Prop where
  accepted : ∀ data direct, (validateGather
    { record, destination := { data := some data, capacity := record.storedBytes }, direct }).ok
  covers : Partitions Gather.start Gather.size 0 record.storedBytes.toNat record.extents
  sources : ∀ extent ∈ record.extents, extent.sourceOffset.toNat + extent.bytes.toNat < 2 ^ 64

/-- The lines behind the header of the catalog. -/
def catalogRows (input : Option String) : List String := ((input.map lines).getD []).tail

/-- The layer and the expert that a row names. -/
def Names (line : String) (layer expert : UInt32) : Prop :=
  ∃ first second rest, fields line = first :: second :: rest ∧
    unsignedInteger first = .ok layer.toUInt64 ∧ unsignedInteger second = .ok expert.toUInt64

/-- The record of every row is found under the layer and the expert that the row names. -/
structure Indexed (config : ExpertCatalogConfig) (extentInput catalogInput : Option String)
    (catalog : ExpertCatalog) : Prop where
  length : catalog.records.length = expertCount config
  find : ∀ layer expert, layer < config.layerCount → expert < config.expertsPerLayer →
    ∃ selected extents line record,
      readExtents config extentInput = .ok (selected, extents) ∧
      (catalogRows catalogInput)[layer.toNat * config.expertsPerLayer.toNat + expert.toNat]? =
        some line ∧
      Names line layer expert ∧
      readRow config selected extents
        (layer.toNat * config.expertsPerLayer.toNat + expert.toNat) line = .ok record ∧
      catalog.records[layer.toNat * config.expertsPerLayer.toNat + expert.toNat]? = some record ∧
      catalog.find layer expert = some record
  outside : ∀ layer expert, ¬ (layer < config.layerCount ∧ expert < config.expertsPerLayer) →
    catalog.find layer expert = none

/-- Extents of exact sizes: none is empty, none wraps in its source, and their sum does not wrap. -/
structure Exact (extents : List PayloadExtent) : Prop where
  nonempty : ∀ extent ∈ extents, extent.bytes ≠ 0
  sources : ∀ extent ∈ extents, extent.sourceOffset.toNat + extent.bytes.toNat < 2 ^ 64
  sum : (extents.map Gather.size).sum < 2 ^ 64

/-- The extent index has exact extents for every expert. -/
def ExactIndex (config : ExpertCatalogConfig) (extentInput : Option String) : Prop :=
  ∀ selected extents, readExtents config extentInput = .ok (selected, extents) →
    ∀ index < expertCount config, Exact (extentsAt selected extents index)

/-- A row that was read. -/
structure RowOf (config : ExpertCatalogConfig) (selected : ExpertCatalogLayout)
    (extents : List PayloadExtent) (index : Nat) (line : String) (record : PayloadRecord) :
    Prop where
  names : ∃ layer expert rest, fields line = layer :: expert :: rest ∧
    unsignedInteger layer = .ok (UInt64.ofNat (index / config.expertsPerLayer.toNat)) ∧
    unsignedInteger expert = .ok (UInt64.ofNat (index % config.expertsPerLayer.toNat))
  extents : record.extents = extentsAt selected extents index
  contiguous : contiguous 0 record.extents = .ok record.storedBytes
  storedBytes : record.storedBytes = config.storedBytes

variable {index : Nat} {line : String}

theorem rowOf_of_ok (h : readRow config selected extents index line = .ok record) :
    RowOf config selected extents index line record := by
  unfold readRow at h
  split at h
  next layer expert stored sha256 first count hfields =>
    simp only [bind_ok, ensure_ok, pure_ok] at h
    obtain ⟨layer', hlayer, expert', hexpert, stored', -, first', -, count', -, _,
      ⟨hlayerAt, hexpertAt, hstored, rfl, rfl, -⟩, offset, hoffset, _, rfl, digest, -, rfl⟩ := h
    have hofLayer : layer' = UInt64.ofNat (index / config.expertsPerLayer.toNat) := by
      rw [← hlayerAt, UInt64.ofNat_toNat]
    have hofExpert : expert' = UInt64.ofNat (index % config.expertsPerLayer.toNat) := by
      rw [← hexpertAt, UInt64.ofNat_toNat]
    exact ⟨⟨layer, expert, _, hfields, hofLayer ▸ hlayer, hofExpert ▸ hexpert⟩, rfl, hoffset,
      hstored⟩
  next => cases h

/-- A catalog, by its two tables. -/
structure Loaded (config : ExpertCatalogConfig) (extentInput catalogInput : Option String)
    (catalog : ExpertCatalog) (selected : ExpertCatalogLayout) (extents : List PayloadExtent) :
    Prop where
  valid : Valid config
  index : readExtents config extentInput = .ok (selected, extents)
  rows : List.Forall₂ (fun row record =>
    readRow config selected extents row.2 row.1 = .ok record) (catalogRows catalogInput).zipIdx
    catalog.records
  length : catalog.records.length = expertCount config
  layers : catalog.layers = config.layerCount
  experts : catalog.experts = config.expertsPerLayer

theorem loaded_of_ok (h : load config extentInput catalogInput destination = .ok catalog) :
    ∃ selected extents, Loaded config extentInput catalogInput catalog selected extents := by
  simp only [load, bind_ok, ensure_ok, mapError_ok] at h
  obtain ⟨_, -, _, hvalid, h⟩ := h
  rw [readCatalog, bind_ok] at h
  obtain ⟨tables, hindex, h⟩ := h
  cases hlines : (catalogInput.map lines).getD [] with
  | nil =>
    rw [hlines] at h
    cases h
  | cons header rows =>
    rw [hlines] at h
    simp only [bind_ok, ensure_ok, pure_ok, readRows] at h
    obtain ⟨_, -, records, hrows, _, hlength, rfl⟩ := h
    have htail : catalogRows catalogInput = rows := by rw [catalogRows, hlines, tail_cons]
    exact ⟨tables.1, tables.2, hvalid, hindex, htail ▸ each_forall₂ hrows, hlength, rfl, rfl⟩

section

variable (h : Loaded config extentInput catalogInput catalog selected extents)

include h

theorem Loaded.row (hrecord : catalog.records[index]? = some record) :
    ∃ line, (catalogRows catalogInput)[index]? = some line ∧
      readRow config selected extents index line = .ok record := by
  have hlength := h.rows.length_eq
  rw [List.length_zipIdx] at hlength
  have hless : index < (catalogRows catalogInput).length := by
    rw [hlength]
    exact (List.getElem?_eq_some_iff.1 hrecord).1
  have hline := List.getElem?_eq_getElem hless
  have hzip : (catalogRows catalogInput).zipIdx[index]? =
      some ((catalogRows catalogInput)[index], index) := by
    rw [List.getElem?_zipIdx, hline]
    simp
  exact ⟨_, hline, forall₂_getElem? h.rows hzip hrecord⟩

theorem Loaded.rowOf (hrecord : catalog.records[index]? = some record) :
    ∃ line, RowOf config selected extents index line record := by
  obtain ⟨line, -, hrow⟩ := h.row hrecord
  exact ⟨line, rowOf_of_ok hrow⟩

theorem Loaded.indexed :
    Indexed config extentInput catalogInput catalog := by
  refine ⟨h.length, fun layer expert hlayer hexpert => ?_, fun layer expert houtside => ?_⟩
  · have hlayerLess := UInt32.lt_iff_toNat_lt.1 hlayer
    have hexpertLess := UInt32.lt_iff_toNat_lt.1 hexpert
    have hless : layer.toNat * config.expertsPerLayer.toNat + expert.toNat <
        catalog.records.length := by
      rw [h.length, expertCount]
      have hrows := Nat.mul_le_mul_right config.expertsPerLayer.toNat (Nat.succ_le_of_lt hlayerLess)
      rw [Nat.succ_mul] at hrows
      omega
    have hrecord := getElem?_eq_getElem hless
    obtain ⟨line, hline, hrow⟩ := h.row hrecord
    obtain ⟨⟨first, second, rest, hfields, hfirst, hsecond⟩, -⟩ := rowOf_of_ok hrow
    have hdiv : (layer.toNat * config.expertsPerLayer.toNat + expert.toNat) /
        config.expertsPerLayer.toNat = layer.toNat := by
      rw [Nat.mul_comm, Nat.mul_add_div (Nat.zero_lt_of_lt hexpertLess),
        Nat.div_eq_of_lt hexpertLess, Nat.add_zero]
    have hmod : (layer.toNat * config.expertsPerLayer.toNat + expert.toNat) %
        config.expertsPerLayer.toNat = expert.toNat := by
      rw [Nat.mul_comm, Nat.mul_add_mod, Nat.mod_eq_of_lt hexpertLess]
    rw [hdiv] at hfirst
    rw [hmod] at hsecond
    refine ⟨selected, extents, line, _, h.index, hline, ⟨first, second, rest, hfields, ?_, ?_⟩,
      hrow, hrecord, ?_⟩
    · rw [hfirst, UInt64.ofNat_uInt32ToNat]
    · rw [hsecond, UInt64.ofNat_uInt32ToNat]
    · unfold find
      rw [h.layers, h.experts, if_neg]
      · exact hrecord
      · rw [not_or, not_or, ge_iff_le, ge_iff_le, UInt32.not_le, UInt32.not_le, not_not]
        exact ⟨hlayer, hexpert, h.length⟩
  · unfold find
    rw [h.layers, h.experts, if_pos]
    by_cases hlayer : layer < config.layerCount
    · right
      left
      exact UInt32.not_lt.1 fun hexpert => houtside ⟨hlayer, hexpert⟩
    · left
      exact UInt32.not_lt.1 hlayer

end

theorem readExtent_named {payloadRoot : String} {extent : PayloadExtent}
    (h : readExtent payloadRoot line = .ok extent) : extent.path.isEmpty = false := by
  unfold readExtent at h
  split at h
  next destination bytes source path hfields =>
    simp only [relativePath, bind_ok, ensure_ok, pure_ok] at h
    obtain ⟨_, ⟨_, ⟨hsome, -⟩, _, -, rfl⟩, _, -, _, -, _, -, rfl⟩ := h
    have hchild : child payloadRoot path ≠ "" := by
      unfold child
      split
      · simp [hsome]
      · simp [hsome]
    simpa using hchild
  next => cases h

theorem readExtents_named (h : readExtents config extentInput = .ok (selected, extents)) :
    ∀ extent ∈ extents, extent.path.isEmpty = false := by
  unfold readExtents at h
  split at h
  next => cases h
  next header rows _ =>
    split at h
    next => cases h
    next found _ =>
      simp only [bind_ok, ensure_ok, pure_ok, Prod.mk.injEq] at h
      obtain ⟨_, -, extents', hextents, _, -, -, rfl⟩ := h
      intro extent hextent
      obtain ⟨line, -, hread⟩ := forall₂_mem_right (each_forall₂ hextents) hextent
      exact readExtent_named hread

theorem tiles_of_contiguous {offset final : UInt64}
    (h : contiguous offset extents = .ok final) (hnonempty : ∀ extent ∈ extents, extent.bytes ≠ 0)
    (hsum : offset.toNat + (extents.map Gather.size).sum < 2 ^ 64) :
    Tiles Gather.start Gather.size offset.toNat extents final.toNat := by
  induction extents generalizing offset with
  | nil =>
    cases h
    rfl
  | cons extent rest ih =>
    simp only [contiguous, bind_ok, ensure_ok] at h
    obtain ⟨_, hstart, hrest⟩ := h
    rw [map_cons, sum_cons] at hsum
    have hsize : Gather.size extent = extent.bytes.toNat := rfl
    have hnext : (offset + extent.bytes).toNat = offset.toNat + extent.bytes.toNat := by
      rw [UInt64.toNat_add]
      omega
    have hpositive : 0 < extent.bytes.toNat :=
      Nat.pos_of_ne_zero fun hzero =>
        hnonempty extent mem_cons_self (UInt64.toNat_inj.1 hzero)
    have htail := ih hrest (fun other hother => hnonempty other (mem_cons_of_mem _ hother))
      (by omega)
    rw [hnext] at htail
    exact ⟨by rw [Gather.start, hstart], hpositive, htail⟩

theorem Loaded.gatherable_iff (h : Loaded config extentInput catalogInput catalog selected extents)
    (hrecord : catalog.records[index]? = some record) :
    Gatherable record ↔ Exact (extentsAt selected extents index) := by
  obtain ⟨line, hrow⟩ := h.rowOf hrecord
  rw [← hrow.extents]
  constructor
  · intro hgather
    refine ⟨fun extent hextent hzero => ?_, hgather.sources, ?_⟩
    · have hsize := hgather.covers.nonempty extent hextent
      rw [Gather.size, hzero] at hsize
      exact absurd hsize (by decide)
    · -- The sizes add up to the record in the order in which they tile it.
      have hperm : (Gather.sortByDestination record.extents).Perm record.extents :=
        perm_insertionSort _ _
      have hsorted : (Gather.sortByDestination record.extents).Pairwise
          fun left right => Gather.start left ≤ Gather.start right := pairwise_insertionSort _ _
      have htiles := (tiles_iff_partitions (Nat.zero_le _) hsorted).2
        (hgather.covers.perm hperm.symm)
      have hsum := htiles.sum
      rw [Nat.zero_add, (hperm.map Gather.size).sum_eq] at hsum
      rw [hsum]
      exact record.storedBytes.toNat_lt
  · intro hexact
    have hzero : (0 : UInt64).toNat = 0 := rfl
    have htiles := tiles_of_contiguous hrow.contiguous hexact.nonempty
      (by rw [hzero, Nat.zero_add]; exact hexact.sum)
    have hcovers := htiles.partitions
    refine ⟨fun data direct => ?_, hcovers, hexact.sources⟩
    refine validateGather_ok_iff.2 ⟨⟨rfl, ?_, UInt64.le_refl _⟩, hcovers, fun extent hextent => ?_⟩
    · rw [hrow.storedBytes]
      obtain ⟨-, -, -, -, -, -, hstored, -⟩ := h.valid
      exact hstored
    · refine ⟨readExtents_named h.index extent ?_, hexact.sources extent hextent⟩
      rw [hrow.extents] at hextent
      exact mem_of_mem_drop (mem_of_mem_take hextent)

/-- A loaded catalog is indexed by its rows, and all its records can be gathered exactly when its
extents are exact. -/
theorem loaded_gatherable_iff
    (h : load config extentInput catalogInput destination = .ok catalog) :
    ((∀ record ∈ catalog.records, Gatherable record) ∧
      Indexed config extentInput catalogInput catalog) ↔ ExactIndex config extentInput := by
  obtain ⟨selected, extents, hloaded⟩ := loaded_of_ok h
  constructor
  · intro hboth selected' extents' hindex index hless
    rw [hloaded.index] at hindex
    cases hindex
    rw [← hloaded.length] at hless
    have hrecord := List.getElem?_eq_getElem hless
    exact (hloaded.gatherable_iff hrecord).1 (hboth.1 _ (List.getElem_mem hless))
  · intro hexact
    refine ⟨fun record hrecord => ?_, hloaded.indexed⟩
    obtain ⟨index, hindex⟩ := List.getElem?_of_mem hrecord
    have hless : index < expertCount config := by
      rw [← hloaded.length]
      exact (List.getElem?_eq_some_iff.1 hindex).1
    exact (hloaded.gatherable_iff hindex).2 (hexact selected extents hloaded.index index hless)

def oneExpert : ExpertCatalogConfig where
  catalogRoot := "catalog"
  sourceRoot := "shards"
  layerCount := 1
  expertsPerLayer := 1
  hiddenSize := 32
  intermediateSize := 32
  storedBytes := 4096
  decodedBytes := 12288
  deviceBytes := 4096
  sourceAbi := 1
  alignment := 4096
  layouts := [{ extentHeader := "extents", catalogHeader := "experts", extentsPerExpert := 2 }]

/-- An index whose second extent is read from the start of another file. -/
def indexText (first second : String) : String :=
  "extents\n0\t" ++ first ++ "\t512\ta.bin\n" ++ first ++ "\t" ++ second ++ "\t0\tb.bin\n"

def catalogText : String :=
  "experts\n0\t0\t4096\t" ++ String.ofList (List.replicate 64 '0') ++ "\t0\t2\n"

def twoExtents (first second : UInt64) : List PayloadExtent :=
  [⟨"shards/a.bin", 512, 0, first⟩, ⟨"shards/b.bin", 0, first, second⟩]

def oneRecord (first second : UInt64) : PayloadRecord where
  extents := twoExtents first second
  storedBytes := 4096
  decodedBytes := 12288
  deviceBytes := 4096
  hidden := 32
  intermediate := 32
  headerBytes := 0

/-- Two halves of a record are gathered. -/
theorem halves_gatherable : load oneExpert (some (indexText "1024" "3072")) (some catalogText) {} =
      .ok ⟨[oneRecord 1024 3072], 4096, 1, 1⟩ ∧
    ((∀ record ∈ [oneRecord 1024 3072], Gatherable record) ∧
      Indexed oneExpert (some (indexText "1024" "3072")) (some catalogText)
        ⟨[oneRecord 1024 3072], 4096, 1, 1⟩) := by
  have hload : load oneExpert (some (indexText "1024" "3072")) (some catalogText) {} =
      .ok ⟨[oneRecord 1024 3072], 4096, 1, 1⟩ := by decide +kernel
  refine ⟨hload, (loaded_gatherable_iff hload).2 ?_⟩
  have hindex : readExtents oneExpert (some (indexText "1024" "3072")) =
      .ok (⟨"extents", "experts", 2, false⟩, twoExtents 1024 3072) := by decide +kernel
  intro selected extents hread index hless
  rw [hindex] at hread
  cases hread
  obtain rfl : index = 0 := Nat.lt_one_iff.1 hless
  exact ⟨by decide, by decide, by decide⟩

/-- An empty extent is admitted, and refused by every read. -/
theorem empty_extent_not_gatherable :
    load oneExpert (some (indexText "4096" "0")) (some catalogText) {} =
        .ok ⟨[oneRecord 4096 0], 4096, 1, 1⟩ ∧
      (validateGather { record := oneRecord 4096 0
                        destination := { data := some 0, capacity := 4096 } }).ok = false ∧
      ¬ ((∀ record ∈ [oneRecord 4096 0], Gatherable record) ∧
        Indexed oneExpert (some (indexText "4096" "0")) (some catalogText)
          ⟨[oneRecord 4096 0], 4096, 1, 1⟩) := by
  have hrefused : (validateGather { record := oneRecord 4096 0
                                    destination := { data := some 0, capacity := 4096 } }).ok =
      false := by decide
  refine ⟨by decide +kernel, hrefused, fun hboth => ?_⟩
  have haccepted := (hboth.1 _ mem_cons_self).accepted 0 true
  exact absurd (haccepted.symm.trans hrefused) (by decide)

end QuantumLlm.Runtime.ExpertCatalog
