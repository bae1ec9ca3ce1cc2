import QuantumLlm.ExpertPack.Compile

/-!
# What a compilation is going to publish

The packs, the indexes and the manifest as functions of the compilation, without
a disk, and what of it the packs that are already written determine.
-/

namespace QuantumLlm.ExpertPack

open List

variable {Tensor Expert Fields Rest : Type}

namespace Compilation

variable {compilation : Compilation Tensor Expert Fields Rest}

/-- Records that follow one another from the start of a pack to its end. -/
def Tiled {α : Type} (offset storedBytes : α → Nat) : Nat → List α → Nat → Prop
  | cursor, [], limit => cursor = limit
  | cursor, entry :: rest, limit =>
    offset entry = cursor ∧ Tiled offset storedBytes (cursor + storedBytes entry) rest limit

variable {α ε : Type} {cursor limit index : Nat} {result : Except ε α} {pack' : DenseRecords Fields}
  {expert : Expert} {rest : List Expert} {pack : ExpertRecords Fields}
  {written' : Directory Fields Rest} {file : FileName} {manifest : Manifest Fields Rest}

theorem Tiled.append {offset storedBytes : α → Nat}
    {entries : List α} (h : Tiled offset storedBytes cursor entries limit) {entry : α}
    (hentry : offset entry = limit) :
    Tiled offset storedBytes cursor (entries ++ [entry]) (limit + storedBytes entry) := by
  induction entries generalizing cursor with
  | nil => exact ⟨hentry.trans h.symm, by rw [← h]; rfl⟩
  | cons first rest ih => exact ⟨h.1, ih h.2⟩

theorem Tiled.sum_eq {offset storedBytes : α → Nat}
    {entries : List α} (h : Tiled offset storedBytes cursor entries limit) :
    cursor + (entries.map storedBytes).sum = limit := by
  induction entries generalizing cursor with
  | nil => exact h
  | cons first rest ih =>
    rw [map_cons, sum_cons, ← Nat.add_assoc]
    exact ih h.2

/-- What the dense pack has at any record. -/
structure DenseRecords.Sound (compilation : Compilation Tensor Expert Fields Rest)
    (written : List Tensor) (pack : DenseRecords Fields) : Prop where
  names : pack.entries.map (fun entry => entry.name) = written.map compilation.denseName
  tiled : Tiled DenseEntry.offset DenseEntry.storedBytes 0 pack.entries pack.bytes.length
  counts : ∀ source, compilation.calibration = some source → pack.counts.Sound source

theorem DenseRecords.Sound.initial (compilation : Compilation Tensor Expert Fields Rest) :
    DenseRecords.Sound compilation [] {} where
  names := rfl
  tiled := rfl
  counts := fun source _ => CalibrationCounts.Sound.initial source

theorem bind_eq_ok {β : Type} {next : α → Except ε β} {value : β}
    (h : (result >>= next) = .ok value) : ∃ middle, result = .ok middle ∧ next middle = .ok value := by
  cases result with
  | error error => cases h
  | ok middle => exact ⟨middle, rfl, h⟩

theorem mapError_eq_ok {ε' : Type} {change : ε → ε'} {value : α}
    (h : result.mapError change = .ok value) : result = .ok value := by
  cases result with
  | error error => cases h
  | ok middle =>
    cases h
    rfl

theorem DenseRecords.Sound.write {written : List Tensor} {pack : DenseRecords Fields}
    {tensor : Tensor} (h : pack.Sound compilation written)
    (hwrite : compilation.writeDenseRecord pack tensor = .ok pack') :
    pack'.Sound compilation (written ++ [tensor]) := by
  obtain ⟨loaded, hload, hrest⟩ := bind_eq_ok hwrite
  obtain ⟨record, -, hrest⟩ := bind_eq_ok hrest
  obtain ⟨counts, hcounts, hpack⟩ := bind_eq_ok hrest
  cases hpack
  refine ⟨?_, ?_, ?_⟩
  · simp [h.names]
  · rw [length_append]
    exact Tiled.append h.tiled rfl
  · intro source hsource
    have hloaded : loaded.1.Sound source := by
      rw [loadCapture, hsource] at hload
      simp only at hload
      split at hload
      next => exact (h.counts source hsource).load (mapError_eq_ok hload)
      next =>
        cases hload
        exact h.counts source hsource
    rw [recordCapture, hsource] at hcounts
    simp only at hcounts
    split at hcounts
    next => exact hloaded.recordSelection (mapError_eq_ok hcounts)
    next =>
      cases hcounts
      exact hloaded

theorem writeDenseRecords_sound {rest written : List Tensor} {pack : DenseRecords Fields}
    (h : pack.Sound compilation written)
    (hwrite : compilation.writeDenseRecords pack rest = .ok pack') :
    pack'.Sound compilation (written ++ rest) := by
  induction rest generalizing pack written with
  | nil =>
    cases hwrite
    rwa [append_nil]
  | cons tensor rest ih =>
    obtain ⟨middle, hmiddle, hrest⟩ := bind_eq_ok hwrite
    have hsound := ih (h.write hmiddle) hrest
    rwa [append_assoc, singleton_append] at hsound

/-! ## Expert packs -/

/-- What an expert pack has at any record. -/
structure ExpertRecords.Sound (compilation : Compilation Tensor Expert Fields Rest) (index : Nat)
    (written : List Expert) (pack : ExpertRecords Fields) : Prop where
  keys : pack.entries.map (fun entry => (entry.layer, entry.expert)) =
    written.map compilation.expertKey
  numbered : ∀ entry ∈ pack.entries, entry.pack = index
  tiled : Tiled ExpertEntry.offset ExpertEntry.storedBytes 0 pack.entries pack.bytes.length

theorem fillExpertPack_sound {index : Nat} {remaining written rest : List Expert}
    {pack pack' : ExpertRecords Fields} (h : pack.Sound compilation index written)
    (hfill : compilation.fillExpertPack index pack remaining = .ok (pack', rest)) :
    ∃ added, remaining = added ++ rest ∧ pack'.Sound compilation index (written ++ added) := by
  induction remaining generalizing pack written with
  | nil =>
    cases hfill
    exact ⟨[], rfl, by rwa [append_nil]⟩
  | cons expert remaining ih =>
    rw [fillExpertPack] at hfill
    split at hfill
    next =>
      cases hfill
      exact ⟨[], rfl, by rwa [append_nil]⟩
    next =>
      obtain ⟨record, -, hrest⟩ := bind_eq_ok hfill
      obtain ⟨added, hadded, hsound⟩ := @ih (written ++ [expert]) _ (by
        refine ⟨?_, ?_, ?_⟩
        · simp [h.keys]
        · intro entry hentry
          rcases mem_append.1 hentry with hold | hnew
          · exact h.numbered entry hold
          · rw [mem_singleton.1 hnew]
        · rw [length_append]
          exact Tiled.append h.tiled rfl) hrest
      rw [append_assoc, singleton_append] at hsound
      exact ⟨expert :: added, by rw [hadded, cons_append], hsound⟩

theorem fillExpertPack_spec
    (hfill : compilation.fillExpertPack index {} (expert :: remaining) = .ok (pack, rest)) :
    ∃ added, expert :: remaining = added ++ rest ∧ added ≠ [] ∧
      pack.Sound compilation index added := by
  obtain ⟨record, -, hrest⟩ := bind_eq_ok hfill
  obtain ⟨added, hadded, hsound⟩ := @fillExpertPack_sound _ _ _ _ compilation index remaining
    [expert] rest _ pack (by
      refine ⟨by simp, by simp, ?_⟩
      exact ⟨rfl, by simp [Tiled]⟩) hrest
  exact ⟨expert :: added, by rw [hadded, cons_append], by simp, hsound⟩

/-- The packs from one on. -/
def expertPacks (compilation : Compilation Tensor Expert Fields Rest) :
    Nat → Nat → List Expert → Except Failure (List (ExpertRecords Fields))
  | _, _, [] => .ok []
  | 0, _, _ :: _ => .error .exhausted
  | fuel + 1, index, expert :: rest => do
    let filled ← compilation.fillExpertPack index {} (expert :: rest)
    let packs ← expertPacks compilation fuel (index + 1) filled.2
    return filled.1 :: packs

/-- The packs that are written, the experts that are left, and what they say about all packs. -/
structure Packed (compilation : Compilation Tensor Expert Fields Rest)
    (packs : List (ExpertRecords Fields)) (remaining : List Expert) : Prop where
  sound : ∀ (index : Nat) (pack : ExpertRecords Fields), packs[index]? = some pack →
    ∃ added, added ≠ [] ∧ pack.Sound compilation index added
  split : ∃ written, compilation.experts = written ++ remaining ∧
    (packs.flatMap fun pack => pack.entries).map (fun entry => (entry.layer, entry.expert)) =
      written.map compilation.expertKey
  ahead : ∃ fuel, remaining.length ≤ fuel ∧
    compilation.expertPacks compilation.experts.length 0 compilation.experts =
      (compilation.expertPacks fuel packs.length remaining).map (packs ++ ·)

theorem Packed.initial (compilation : Compilation Tensor Expert Fields Rest) :
    compilation.Packed [] compilation.experts where
  sound := nofun
  split := ⟨[], rfl, rfl⟩
  ahead := by
    refine ⟨compilation.experts.length, le_rfl, ?_⟩
    cases compilation.expertPacks compilation.experts.length 0 compilation.experts with
    | error error => rfl
    | ok packs => rfl

variable {packs : List (ExpertRecords Fields)} {remaining : List Expert}

theorem Packed.next (h : compilation.Packed packs (expert :: remaining))
    (hfill : compilation.fillExpertPack packs.length {} (expert :: remaining) = .ok (pack, rest)) :
    compilation.Packed (packs ++ [pack]) rest := by
  obtain ⟨added, hadded, hne, hsound⟩ := fillExpertPack_spec hfill
  obtain ⟨written, hsplit, hkeys⟩ := h.split
  obtain ⟨fuel, hfuel, hahead⟩ := h.ahead
  refine ⟨?_, ⟨written ++ added, ?_, ?_⟩, ?_⟩
  · intro index other hother
    rcases Nat.lt_trichotomy index packs.length with hlt | heq | hgt
    · rw [getElem?_append_left hlt] at hother
      exact h.sound index other hother
    · rw [heq, getElem?_append_right le_rfl, Nat.sub_self] at hother
      cases hother
      exact ⟨added, hne, heq ▸ hsound⟩
    · rw [getElem?_eq_none_iff.2 (by simp; omega)] at hother
      cases hother
  · rw [hsplit, hadded, append_assoc]
  · rw [flatMap_append, map_append, hkeys, map_append]
    simp [hsound.keys]
  · obtain ⟨fuel, rfl⟩ : ∃ less, fuel = less + 1 :=
      ⟨fuel - 1, by rw [length_cons] at hfuel; omega⟩
    refine ⟨fuel, ?_, ?_⟩
    · have hlength := congrArg List.length hadded
      have hpos := length_pos_iff.2 hne
      rw [length_append] at hlength
      omega
    · rw [hahead, expertPacks, hfill, length_append, length_singleton]
      change (do
        let packs ← compilation.expertPacks fuel (packs.length + 1) rest
        return pack :: packs : Except Failure _).map (packs ++ ·) = _
      cases compilation.expertPacks fuel (packs.length + 1) rest with
      | error error => rfl
      | ok later =>
        change Except.ok (packs ++ pack :: later) = Except.ok (packs ++ [pack] ++ later)
        rw [append_assoc, singleton_append]

theorem Packed.not_planned {error : Failure} (h : compilation.Packed packs (expert :: remaining))
    (hfill : compilation.fillExpertPack packs.length {} (expert :: remaining) = .error error)
    {planned : List (ExpertRecords Fields)} :
    compilation.expertPacks compilation.experts.length 0 compilation.experts ≠ .ok planned := by
  obtain ⟨fuel, hfuel, hahead⟩ := h.ahead
  obtain ⟨fuel, rfl⟩ : ∃ less, fuel = less + 1 :=
    ⟨fuel - 1, by rw [length_cons] at hfuel; omega⟩
  rw [hahead, expertPacks, hfill]
  rintro ⟨⟩

theorem Packed.planned (h : compilation.Packed packs []) :
    compilation.expertPacks compilation.experts.length 0 compilation.experts = .ok packs := by
  obtain ⟨fuel, -, hahead⟩ := h.ahead
  have hnil : compilation.expertPacks fuel packs.length [] = .ok [] := by
    cases fuel <;> rfl
  rw [hahead, hnil]
  exact congrArg Except.ok (append_nil packs)

section

variable (h : compilation.Packed packs remaining)

include h

theorem Packed.of_planned {planned : List (ExpertRecords Fields)}
    (hplanned : compilation.expertPacks compilation.experts.length 0 compilation.experts =
      .ok planned) : packs <+: planned := by
  obtain ⟨fuel, -, hahead⟩ := h.ahead
  rw [hahead] at hplanned
  cases hlater : compilation.expertPacks fuel packs.length remaining with
  | error error =>
    rw [hlater] at hplanned
    cases hplanned
  | ok later =>
    rw [hlater] at hplanned
    cases hplanned
    exact prefix_append packs later

theorem Packed.drop_eq :
    compilation.experts.drop (packs.flatMap fun pack => pack.entries).length = remaining := by
  obtain ⟨written, hsplit, hkeys⟩ := h.split
  have hlength := congrArg List.length hkeys
  rw [length_map, length_map] at hlength
  rw [hlength, hsplit, drop_left]

theorem Packed.pack_eq {entry : ExpertEntry Fields}
     (hpack : packs[index]? = some pack) (hentry : entry ∈ pack.entries) : entry.pack = index := by
  obtain ⟨added, -, hsound⟩ := h.sound index pack hpack
  exact hsound.numbered entry hentry

theorem Packed.mem_indices :
    index ∈ ((packs.flatMap fun pack => pack.entries).map fun entry => entry.pack) ↔
      index < packs.length := by
  rw [List.mem_map]
  constructor
  · rintro ⟨entry, hentry, rfl⟩
    obtain ⟨pack, hpack, hmem⟩ := List.mem_flatMap.1 hentry
    obtain ⟨index, hindex⟩ := List.mem_iff_getElem?.1 hpack
    rw [h.pack_eq hindex hmem]
    exact (List.getElem?_eq_some_iff.1 hindex).1
  · intro hindex
    obtain ⟨added, hne, hsound⟩ := h.sound index packs[index] (List.getElem?_eq_getElem hindex)
    have hentries : packs[index].entries ≠ [] := by
      intro hnil
      have hkeys := hsound.keys
      rw [hnil, List.map_nil, eq_comm, List.map_eq_nil_iff] at hkeys
      exact hne hkeys
    obtain ⟨entry, rest, hentry⟩ := List.exists_cons_of_ne_nil hentries
    have hmem : entry ∈ packs[index].entries := by
      rw [hentry]
      exact List.mem_cons_self
    exact ⟨entry, List.mem_flatMap.2 ⟨packs[index], List.getElem_mem hindex, hmem⟩,
      hsound.numbered entry hmem⟩

theorem Packed.length_dedup :
    ((packs.flatMap fun pack => pack.entries).map fun entry => entry.pack).dedup.length =
      packs.length := by
  have hperm : ((packs.flatMap fun pack => pack.entries).map fun entry => entry.pack).dedup.Perm
      (List.range packs.length) := by
    rw [perm_ext_iff_of_nodup (nodup_dedup _) nodup_range]
    intro index
    rw [mem_dedup, h.mem_indices, mem_range]
  rw [hperm.length_eq, length_range]

theorem Packed.filter_eq (hpack : packs[index]? = some pack) :
    ((packs.flatMap fun pack => pack.entries).filter fun entry => entry.pack = index) =
      pack.entries := by
  obtain ⟨hindex, hget⟩ := List.getElem?_eq_some_iff.1 hpack
  have hsplit : packs = packs.take index ++ pack :: packs.drop (index + 1) := by
    rw [← hget, List.getElem_cons_drop hindex, List.take_append_drop]
  have hothers : ∀ (other : Nat) (others : ExpertRecords Fields), packs[other]? = some others →
      other ≠ index → (others.entries.filter fun entry => entry.pack = index) = [] := by
    intro other others hother hne
    rw [List.filter_eq_nil_iff]
    intro entry hentry
    rw [h.pack_eq hother hentry]
    simpa using hne
  have hnone : ∀ part : List (ExpertRecords Fields),
      (∀ others ∈ part, ∃ other, packs[other]? = some others ∧ other ≠ index) →
      ((part.flatMap fun pack => pack.entries).filter fun entry => entry.pack = index) = [] := by
    intro part hpart
    rw [List.filter_flatMap, List.flatMap_eq_nil_iff]
    intro others hmem
    obtain ⟨other, hother, hne⟩ := hpart others hmem
    exact hothers other others hother hne
  have hown : (pack.entries.filter fun entry => entry.pack = index) = pack.entries := by
    rw [List.filter_eq_self]
    intro entry hentry
    simpa using h.pack_eq hpack hentry
  conv => lhs; rw [hsplit]
  rw [List.flatMap_append, List.flatMap_cons, List.filter_append, List.filter_append, hown,
    hnone (packs.take index), hnone (packs.drop (index + 1)), List.nil_append, List.append_nil]
  · intro others hmem
    obtain ⟨other, hother⟩ := List.mem_iff_getElem?.1 hmem
    rw [List.getElem?_drop] at hother
    exact ⟨index + 1 + other, hother, by omega⟩
  · intro others hmem
    obtain ⟨other, hother⟩ := List.mem_iff_getElem?.1 hmem
    rw [List.getElem?_take] at hother
    split at hother
    next hless => exact ⟨other, hother, by omega⟩
    next => cases hother

end

theorem payload_congr {written : Directory Fields Rest}
    (h : written'.get (.final file) = written.get (.final file)) :
    payload written' file = payload written file := by
  rw [payload, payload, h]

theorem packInfos_congr {written : Directory Fields Rest}
    (h : ∀ pack, payload written' (packFile pack) = payload written (packFile pack))
    (experts : List (ExpertEntry Fields)) (indices : List Nat) :
    compilation.packInfos written' experts indices =
      compilation.packInfos written experts indices := by
  induction indices with
  | nil => rfl
  | cons index rest ih =>
    have hpayload := h (some index)
    simp only [packInfos, packInfo, hpayload, ih]

theorem buildManifest_congr {written : Directory Fields Rest}
    (h : ∀ pack, payload written' (packFile pack) = payload written (packFile pack))
    (dense : List (DenseEntry Fields)) (experts : List (ExpertEntry Fields))
    (metadata : List (String × List UInt8)) (runtimeModel : List UInt8)
    (report : Option CalibrationSnapshot) :
    compilation.buildManifest written' dense experts metadata runtimeModel report =
      compilation.buildManifest written dense experts metadata runtimeModel report := by
  have hdense := h none
  simp only [buildManifest, packInfo, hdense, packInfos_congr h]

theorem buildManifest_spec {written : Directory Fields Rest} {dense : List (DenseEntry Fields)}
    {experts : List (ExpertEntry Fields)} {metadata : List (String × List UInt8)}
    {runtimeModel : List UInt8} {report : Option CalibrationSnapshot}
    (h : compilation.buildManifest written dense experts metadata runtimeModel report =
      .ok manifest) :
    manifest.body.tensors = dense ∧ manifest.body.experts = experts := by
  obtain ⟨densePack, -, hrest⟩ := bind_eq_ok h
  obtain ⟨expertPacks, -, hrest⟩ := bind_eq_ok hrest
  obtain ⟨rest, -, hmanifest⟩ := bind_eq_ok hrest
  cases hmanifest
  exact ⟨rfl, rfl⟩

theorem infoMatches_congr {written : Directory Fields Rest}
    (h : written'.get (.final file) = written.get (.final file)) (info : FileInfo) :
    compilation.infoMatches written' file info = compilation.infoMatches written file info := by
  rw [infoMatches, infoMatches, payload_congr h]

theorem all_indexed_iff {written : Directory Fields Rest} {packs : List (Option Nat)} :
    (written.all fun entry => indexed packs entry.1) = true ↔
      ∀ path, (written.get path).isSome → indexed packs path = true := by
  rw [all_eq_true]
  constructor
  · intro h path hpath
    obtain ⟨entry, hentry, rfl⟩ := mem_map.1 (Files.mem_paths.2 hpath)
    exact h entry hentry
  · exact fun h entry hentry => h entry.1 (Files.get_eq_some_of_mem hentry)

theorem validateContainer_congr {written : Directory Fields Rest}
    (h : ∀ path, path ≠ .final .state → written'.get path = written.get path) :
    compilation.validateContainer written' = compilation.validateContainer written := by
  have hfinal : ∀ file, file ≠ .state → written'.get (.final file) = written.get (.final file) := by
    intro file hfile
    apply h
    intro heq
    exact hfile (congrArg Path.file heq)
  have hpack : ∀ pack, packFile pack ≠ .state := by
    intro pack
    cases pack <;> simp [packFile]
  have hvalid : ∀ body, compilation.validPack written' body = compilation.validPack written body := by
    intro body
    funext pack
    rw [validPack, validPack, payload_congr (hfinal _ (hpack pack.pack))]
  have hinfos : ∀ pack : PackInfo,
      compilation.infoMatches written' (packFile pack.pack) pack.info =
        compilation.infoMatches written (packFile pack.pack) pack.info :=
    fun pack => infoMatches_congr (hfinal _ (hpack pack.pack)) pack.info
  have hmetadata : ∀ entry : String × FileInfo,
      compilation.infoMatches written' (.metadata entry.1) entry.2 =
        compilation.infoMatches written (.metadata entry.1) entry.2 :=
    fun entry => infoMatches_congr (hfinal _ (by simp)) entry.2
  have hlisted : ∀ packs, (written'.all fun entry => indexed packs entry.1) =
      (written.all fun entry => indexed packs entry.1) := by
    intro packs
    rw [Bool.eq_iff_iff, all_indexed_iff, all_indexed_iff]
    have heach : ∀ path, ((written'.get path).isSome → indexed packs path = true) ↔
        ((written.get path).isSome → indexed packs path = true) := by
      intro path
      by_cases hstate : path = .final .state
      · rw [hstate]
        exact ⟨fun _ _ => rfl, fun _ _ => rfl⟩
      · rw [h path hstate]
    exact forall_congr' heach
  rw [validateContainer, validateContainer, hfinal .manifest (by simp),
    hfinal .completed (by simp), payload_congr (hfinal .runtimeModel (by simp))]
  simp only [hvalid, hinfos, hmetadata, hlisted]

theorem valid_of_coverage {offset storedBytes : α → Nat} {valid : α → Bool} {entries : List α}
    (h : coverage offset storedBytes valid cursor entries = some limit) :
    ∀ entry ∈ entries, valid entry = true := by
  induction entries generalizing cursor with
  | nil => exact fun entry hentry => absurd hentry not_mem_nil
  | cons first rest ih =>
    rw [coverage] at h
    split at h
    next hfirst =>
      intro entry hentry
      rcases mem_cons.1 hentry with rfl | hrest
      · exact hfirst.2
      · exact ih h entry hrest
    next => cases h

theorem valid_of_validateContainer {written : Directory Fields Rest}
    (h : compilation.validateContainer written = true)
    (hmanifest : written.get (.final .manifest) = some (.manifest manifest)) :
    (∀ entry ∈ manifest.body.tensors, ∃ bytes, payload written .dense = some bytes ∧
      compilation.validDense bytes entry = true) ∧
    ∀ entry ∈ manifest.body.experts, ∃ bytes, payload written (.experts entry.pack) = some bytes ∧
      compilation.validExpert bytes entry = true := by
  rw [validateContainer, hmanifest] at h
  split at h
  next manifest' marker hsame hmarker =>
    cases hsame
    simp only [Bool.and_eq_true, List.all_eq_true] at h
    obtain ⟨⟨⟨⟨⟨-, hpacks⟩, hdense⟩, hexperts⟩, -⟩, -⟩ := h
    constructor
    · intro entry hentry
      have hlisted : none ∈ manifest.body.packs.map fun pack => pack.pack := by
        rcases Bool.or_eq_true _ _ ▸ hdense with hempty | hlisted
        · rw [List.isEmpty_iff] at hempty
          rw [hempty] at hentry
          cases hentry
        · exact of_decide_eq_true hlisted
      obtain ⟨pack, hpack, hnone⟩ := List.mem_map.1 hlisted
      have hvalid := hpacks pack hpack
      rw [validPack, hnone] at hvalid
      split at hvalid
      next => cases hvalid
      next bytes hbytes =>
        simp only [Bool.and_eq_true, decide_eq_true_eq] at hvalid
        refine ⟨bytes, hbytes, valid_of_coverage hvalid.1 entry ?_⟩
        exact (List.perm_insertionSort _ _).mem_iff.2 hentry
    · intro entry hentry
      have hlisted := of_decide_eq_true (hexperts entry hentry)
      obtain ⟨pack, hpack, hsome⟩ := List.mem_map.1 hlisted
      have hvalid := hpacks pack hpack
      rw [validPack, hsome] at hvalid
      split at hvalid
      next => cases hvalid
      next bytes hbytes =>
        simp only [Bool.and_eq_true, decide_eq_true_eq] at hvalid
        refine ⟨bytes, hbytes, valid_of_coverage hvalid.1 entry ?_⟩
        rw [(List.perm_insertionSort _ _).mem_iff, List.mem_filter]
        exact ⟨hentry, by simp⟩
  next => cases h

end Compilation

/-! ## The container -/

/-- What a compilation publishes. -/
@[ext] structure Plan (Fields Rest : Type) where
  dense : Compilation.DenseRecords Fields
  packs : List (Compilation.ExpertRecords Fields)
  metadata : List (String × List UInt8)
  runtimeModel : List UInt8
  manifest : Manifest Fields Rest
  marker : Marker

/-- A name that is copied again is replaced. -/
def metadataOf (name : String) : List (String × List UInt8) → Option (List UInt8)
  | [] => none
  | entry :: rest => (metadataOf name rest).or (if entry.1 = name then some entry.2 else none)

namespace Plan

variable (plan : Plan Fields Rest)

def entries : List (ExpertEntry Fields) := plan.packs.flatMap fun pack => pack.entries

def payload : Option Nat → Option (List UInt8)
  | none => some plan.dense.bytes
  | some index => plan.packs[index]?.map fun pack => pack.bytes

def content (path : Path) : Option (Content Fields Rest) :=
  if path.temporary then none
  else
    match path.file with
    | .state => none
    | .dense => (plan.payload none).map .bytes
    | .experts index => (plan.payload (some index)).map .bytes
    | .manifest => some (.manifest plan.manifest)
    | .report => some .report
    | .completed => some (.marker plan.marker)
    | .runtimeModel => some (.bytes plan.runtimeModel)
    | .metadata name => (metadataOf name plan.metadata).map .bytes

/-- The files of the container, and no other file but the journal. -/
def Stored (written : Directory Fields Rest) : Prop :=
  ∀ path, path ≠ .final .state → written.get path = plan.content path

end Plan

/-- What is written, when nothing fails before the validation. -/
structure Prepared (compilation : Compilation Tensor Expert Fields Rest) (plan : Plan Fields Rest) :
    Prop where
  dense : compilation.writeDenseRecords {} compilation.dense = .ok plan.dense
  components : compilation.components = .ok ()
  packs : compilation.expertPacks compilation.experts.length 0 compilation.experts = .ok plan.packs
  metadata : compilation.metadata = .ok plan.metadata
  runtimeModel : compilation.runtimeModel = .ok plan.runtimeModel
  manifest : ∃ report, compilation.finalizeCalibration plan.dense.counts = .ok report ∧
    ∀ written, (∀ pack, payload written (packFile pack) = plan.payload pack) →
      compilation.buildManifest written plan.dense.entries plan.entries plan.metadata
        plan.runtimeModel report = .ok plan.manifest
  marker : plan.marker = compilation.marker plan.manifest

/-- What is published, when the compilation goes through. -/
structure Planned (compilation : Compilation Tensor Expert Fields Rest) (plan : Plan Fields Rest) :
    Prop extends Prepared compilation plan where
  accepted : ∃ written, plan.Stored written ∧ compilation.validateContainer written = true

variable {compilation : Compilation Tensor Expert Fields Rest} {plan plan' : Plan Fields Rest}
  {written : Directory Fields Rest}

theorem Plan.Stored.payload_eq (h : plan.Stored written) (pack : Option Nat) :
    ExpertPack.payload written (packFile pack) = plan.payload pack := by
  rw [ExpertPack.payload, h]
  · cases pack with
    | none => rfl
    | some index =>
      rw [packFile, Path.final, Plan.content]
      simp only [Bool.false_eq_true, if_false]
      cases plan.payload (some index) <;> rfl
  · intro hstate
    have hfile := congrArg Path.file hstate
    cases pack <;> cases hfile

theorem Prepared.unique (h : Prepared compilation plan) (h' : Prepared compilation plan')
    (hstored : plan.Stored written) : plan' = plan := by
  have hdense : plan'.dense = plan.dense := Except.ok.inj (h'.dense.symm.trans h.dense)
  have hpacks : plan'.packs = plan.packs := Except.ok.inj (h'.packs.symm.trans h.packs)
  have hmetadata : plan'.metadata = plan.metadata :=
    Except.ok.inj (h'.metadata.symm.trans h.metadata)
  have hmodel : plan'.runtimeModel = plan.runtimeModel :=
    Except.ok.inj (h'.runtimeModel.symm.trans h.runtimeModel)
  obtain ⟨report, hreport, hbuild⟩ := h.manifest
  obtain ⟨report', hreport', hbuild'⟩ := h'.manifest
  rw [hdense] at hreport'
  obtain rfl : report' = report := Except.ok.inj (hreport'.symm.trans hreport)
  have hpayload : ∀ pack, ExpertPack.payload written (packFile pack) = plan'.payload pack := by
    intro pack
    rw [hstored.payload_eq]
    cases pack with
    | none => rw [Plan.payload, Plan.payload, hdense]
    | some index => rw [Plan.payload, Plan.payload, hpacks]
  have hsame := hbuild' written hpayload
  rw [Plan.entries, hdense, hpacks, hmetadata, hmodel] at hsame
  have hmanifest : plan'.manifest = plan.manifest :=
    Except.ok.inj (hsame.symm.trans (hbuild written hstored.payload_eq))
  exact Plan.ext hdense hpacks hmetadata hmodel hmanifest
    (by rw [h'.marker, h.marker, hmanifest])

theorem Prepared.planned (h : Prepared compilation plan) (hstored : plan.Stored written)
    (hvalid : compilation.validateContainer written = true) : Planned compilation plan :=
  ⟨h, written, hstored, hvalid⟩

theorem Planned.valid (h : Planned compilation plan) (hstored : plan.Stored written) :
    compilation.validateContainer written = true := by
  obtain ⟨other, hother, hvalid⟩ := h.accepted
  rw [← hvalid]
  apply Compilation.validateContainer_congr
  intro path hpath
  rw [hother path hpath, hstored path hpath]

theorem Prepared.not_planned (h : Prepared compilation plan) (hstored : plan.Stored written)
    (hinvalid : ¬ compilation.validateContainer written = true) :
    ¬ ∃ other : Plan Fields Rest, Planned compilation other := by
  rintro ⟨other, hother⟩
  obtain rfl := h.unique hother.toPrepared hstored
  exact hinvalid (hother.valid hstored)

theorem Planned.valid_records (h : Planned compilation plan) :
    (∀ entry ∈ plan.dense.entries, compilation.validDense plan.dense.bytes entry = true) ∧
    ∀ entry ∈ plan.entries, ∃ pack, plan.packs[entry.pack]? = some pack ∧
      compilation.validExpert pack.bytes entry = true := by
  obtain ⟨stored, hstored, hvalid⟩ := h.accepted
  obtain ⟨report, -, hmanifest⟩ := h.manifest
  obtain ⟨htensors, hexperts⟩ := Compilation.buildManifest_spec (hmanifest stored hstored.payload_eq)
  have hget : stored.get (.final .manifest) = some (.manifest plan.manifest) :=
    hstored _ (by simp [Path.final])
  obtain ⟨hdense, hrecords⟩ := Compilation.valid_of_validateContainer hvalid hget
  rw [htensors] at hdense
  rw [hexperts] at hrecords
  constructor
  · intro entry hentry
    obtain ⟨bytes, hbytes, hentryValid⟩ := hdense entry hentry
    have hpayload := hstored.payload_eq none
    rw [packFile, hbytes, Plan.payload, Option.some.injEq] at hpayload
    rw [← hpayload]
    exact hentryValid
  · intro entry hentry
    obtain ⟨bytes, hbytes, hentryValid⟩ := hrecords entry hentry
    have hpayload := hstored.payload_eq (some entry.pack)
    rw [packFile, hbytes, Plan.payload, eq_comm, Option.map_eq_some_iff] at hpayload
    obtain ⟨pack, hpack, rfl⟩ := hpayload
    exact ⟨pack, hpack, hentryValid⟩

end QuantumLlm.ExpertPack
