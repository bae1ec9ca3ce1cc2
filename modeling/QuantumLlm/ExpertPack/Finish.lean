import QuantumLlm.ExpertPack.Resume

/-!
# Finishing a conversion

Behind the last pack: metadata, runtime model, manifest, report and marker. The
marker makes the directory complete, and until then the journal counts.
-/

namespace QuantumLlm.ExpertPack

variable {Tensor Expert Fields Rest : Type}
  {compilation : Compilation Tensor Expert Fields Rest} {written written' : Directory Fields Rest}
  {state : State Fields}

open Compilation

/-- The directory after these files were copied. -/
def copiedContent (written : Directory Fields Rest) (entries : List (String × List UInt8))
    (path : Path) : Option (Content Fields Rest) :=
  match path.file, path.temporary with
  | .metadata name, false => ((metadataOf name entries).map .bytes).or (written.get path)
  | .metadata name, true => if name ∈ entries.map Prod.fst then none else written.get path
  | _, _ => written.get path

variable {entries : List (String × List UInt8)} {plan : Plan Fields Rest}
  {report : Option CalibrationSnapshot} {manifest : Manifest Fields Rest}

theorem Resumable.metadata_replaced
    {entry : String × List UInt8} (h : Resumable compilation written state)
    (hmetadata : compilation.metadata = .ok entries) (hentry : entry ∈ entries) :
    Resumable compilation (written.put ⟨.metadata entry.1, true⟩ .torn) state ∧
      Resumable compilation ((written.put ⟨.metadata entry.1, true⟩ .torn).put
        ⟨.metadata entry.1, true⟩ (.bytes entry.2)) state ∧
      Resumable compilation (replaced written (.metadata entry.1) (.bytes entry.2)) state := by
  have hkeep : ∀ {written' : Directory Fields Rest},
      (∀ path : Path, path.file ≠ .metadata entry.1 → written'.get path = written.get path) →
      Resumable compilation written' state := by
    intro written' hsame
    refine h.of_same ?_ ?_
    · rintro path ⟨hfinal, hneeded⟩
      apply hsame
      rintro hfile
      rw [hfile] at hneeded
      exact hneeded
    · intro name temporary hsome
      by_cases hname : name = entry.1
      · exact ⟨entries, hmetadata, entry, hentry, hname.symm⟩
      · rw [hsame _ (by simpa using hname)] at hsome
        exact h.metadata name temporary hsome
  refine ⟨hkeep ?_, hkeep ?_, hkeep ?_⟩
  · intro path hpath
    rw [Files.get_put, if_neg fun heq => hpath (by rw [heq])]
  · intro path hpath
    rw [Files.get_put, Files.get_put, if_neg fun heq => hpath (by rw [heq]),
      if_neg fun heq => hpath (by rw [heq])]
  · intro path hpath
    rw [get_replaced, if_neg fun heq => hpath (by rw [heq]; rfl),
      if_neg fun heq => hpath (by rw [heq])]

theorem safe_copyMetadata {all rest : List (String × List UInt8)}
    (hmetadata : compilation.metadata = .ok all) :
    ∀ {written : Directory Fields Rest}, Resumable compilation written state →
      (∀ entry ∈ rest, entry ∈ all) →
      Durable.Safe (Recoverable compilation) (Fruitless compilation)
        (fun _ disk => ∃ written', disk = ⟨some written', none⟩ ∧
          Resumable compilation written' state ∧
          ∀ path, written'.get path = copiedContent written rest path)
        (copyMetadata rest) ⟨some written, none⟩ := by
  induction rest with
  | nil =>
    intro written h _
    refine ⟨.journaled h, .journaled h, written, rfl, h, ?_⟩
    rintro ⟨file, temporary⟩
    cases file with
    | metadata name =>
      cases temporary with
      | false => rfl
      | true => rfl
    | _ => rfl
  | cons entry rest ih =>
    intro written h hrest
    obtain ⟨htorn, hput, hafter⟩ := h.metadata_replaced hmetadata (hrest entry List.mem_cons_self)
    apply Durable.Safe.bind (safe_replaceFile (.journaled h) (.journaled htorn) (.journaled hput)
      (.journaled hafter))
    rintro value disk rfl
    refine (ih hafter fun other hother => hrest other (List.mem_cons_of_mem _ hother)).mono
      (fun _ _ hfails => hfails) ?_
    rintro - disk ⟨written', rfl, hresumable, hcopied⟩
    refine ⟨written', rfl, hresumable, ?_⟩
    rintro ⟨file, temporary⟩
    rw [hcopied]
    cases file with
    | metadata name =>
      cases temporary with
      | false =>
        simp only [copiedContent, get_replaced, metadataOf, Path.final, Path.mk.injEq,
          FileName.metadata.injEq, and_true, Bool.false_eq_true, and_false, if_false]
        by_cases hname : name = entry.1
        · rw [if_pos hname, if_pos hname.symm]
          cases metadataOf name rest <;> rfl
        · rw [if_neg hname, if_neg (Ne.symm hname)]
          cases metadataOf name rest <;> rfl
      | true =>
        simp only [copiedContent, get_replaced, Path.final, Path.mk.injEq,
          FileName.metadata.injEq, and_true, Bool.true_eq_false, and_false, if_false,
          List.map_cons, List.mem_cons]
        by_cases hname : name = entry.1
        · simp [hname]
        · rw [if_neg hname]
          simp only [hname, false_or]
    | _ =>
      simp only [copiedContent]
      rw [get_replaced, if_neg (by simp [Path.final]), if_neg (by simp)]

theorem metadataOf_isSome {name : String} :
    (metadataOf name entries).isSome ↔ name ∈ entries.map Prod.fst := by
  induction entries with
  | nil => simp [metadataOf]
  | cons entry rest ih =>
    rw [metadataOf, List.map_cons, List.mem_cons, Option.isSome_or, Bool.or_eq_true, ih]
    by_cases hname : entry.1 = name
    · simp [hname]
    · simp [hname, Ne.symm hname]

variable {dense : DenseRecords Fields} {packs : List (ExpertRecords Fields)}

/-- What the manifest is built from, once the runtime model is there. -/
structure Assembled (compilation : Compilation Tensor Expert Fields Rest)
    (written : Directory Fields Rest) (state : State Fields) (dense : DenseRecords Fields)
    (packs : List (ExpertRecords Fields)) (metadata : List (String × List UInt8))
    (runtimeModel : List UInt8) : Prop where
  committed : Committed compilation written state dense packs []
  components : compilation.components = .ok ()
  metadataGiven : compilation.metadata = .ok metadata
  modelGiven : compilation.runtimeModel = .ok runtimeModel
  metadataBytes : ∀ name, written.get (.final (.metadata name)) =
    (metadataOf name metadata).map .bytes
  metadataTemporary : ∀ name, written.get ⟨.metadata name, true⟩ = none
  modelBytes : written.get (.final .runtimeModel) = some (.bytes runtimeModel)

variable {metadata : List (String × List UInt8)} {runtimeModel : List UInt8}

section

variable (h : Assembled compilation written state dense packs metadata runtimeModel)

include h

theorem Assembled.packs_eq (index : Nat) :
    written.get (.final (.experts index)) = packs[index]?.map fun pack => .bytes pack.bytes := by
  cases hpack : packs[index]? with
  | some pack => exact h.committed.packBytes index pack hpack
  | none =>
    apply h.committed.clean.packs
    have hlength := List.getElem?_eq_none_iff.1 hpack
    simp only [isUncommitted, Path.final, decide_eq_true_eq]
    rw [h.committed.entries, h.committed.packed.mem_indices]
    omega

theorem Assembled.payload_eq (hdense : plan.dense = dense) (hpacks : plan.packs = packs)
    (pack : Option Nat) : payload written (packFile pack) = plan.payload pack := by
  cases pack with
  | none =>
    simp only [payload, packFile]
    rw [h.committed.denseBytes, Plan.payload, hdense]
  | some index =>
    simp only [payload, packFile]
    rw [h.packs_eq, Plan.payload, hpacks]
    cases packs[index]? <;> rfl

theorem Assembled.of_prepared (hplan : Prepared compilation plan) :
    plan.dense = dense ∧ plan.packs = packs ∧ plan.metadata = metadata ∧
      plan.runtimeModel = runtimeModel :=
  ⟨Except.ok.inj (hplan.dense.symm.trans h.committed.denseWritten),
    Except.ok.inj (hplan.packs.symm.trans h.committed.packed.planned),
    Except.ok.inj (hplan.metadata.symm.trans h.metadataGiven),
    Except.ok.inj (hplan.runtimeModel.symm.trans h.modelGiven)⟩

theorem Assembled.entries_eq (hdense : plan.dense = dense) (hpacks : plan.packs = packs) :
    state.dense = plan.dense.entries ∧ state.experts = plan.entries := by
  rw [h.committed.denseEntries, h.committed.entries, Plan.entries, hdense, hpacks]
  exact ⟨rfl, rfl⟩

theorem Assembled.prepared
    (hreport : compilation.finalizeCalibration dense.counts = .ok report)
    (hmanifest : compilation.buildManifest written state.dense state.experts metadata runtimeModel
      report = .ok manifest) :
    Prepared compilation
      { dense, packs, metadata, runtimeModel, manifest, marker := compilation.marker manifest } := by
  refine ⟨h.committed.denseWritten, h.components, h.committed.packed.planned, h.metadataGiven,
    h.modelGiven, ⟨report, hreport, ?_⟩, rfl⟩
  intro other hother
  rw [← hmanifest, h.committed.denseEntries, h.committed.entries]
  apply buildManifest_congr
  intro pack
  rw [hother]
  exact (h.payload_eq rfl rfl pack).symm

theorem Assembled.stored (manifest : Manifest Fields Rest) :
    Plan.Stored
      { dense, packs, metadata, runtimeModel, manifest, marker := compilation.marker manifest }
      (replaced (replaced (replaced written .manifest (.manifest manifest)) .report .report)
        .completed (.marker (compilation.marker manifest))) := by
  rintro ⟨file, temporary⟩ hstate
  cases temporary with
  | true =>
    have hnone : written.get ⟨file, true⟩ = none := by
      cases file with
      | metadata name => exact h.metadataTemporary name
      | _ => exact h.committed.clean.temporaries _ rfl
    simp [get_replaced, Path.final, hnone, Plan.content]
  | false =>
    cases file with
    | state => exact absurd rfl hstate
    | manifest => simp [get_replaced, Path.final, Plan.content]
    | report => simp [get_replaced, Path.final, Plan.content]
    | completed => simp [get_replaced, Path.final, Plan.content]
    | dense =>
      have hbytes := h.committed.denseBytes
      rw [Path.final] at hbytes
      simp [get_replaced, Path.final, Plan.content, Plan.payload, hbytes]
    | runtimeModel =>
      have hbytes := h.modelBytes
      rw [Path.final] at hbytes
      simp [get_replaced, Path.final, Plan.content, hbytes]
    | experts index =>
      have hbytes := h.packs_eq index
      rw [Path.final] at hbytes
      simp [get_replaced, Path.final, Plan.content, Plan.payload, hbytes, Function.comp_def]
    | metadata name =>
      have hbytes := h.metadataBytes name
      rw [Path.final] at hbytes
      simp [get_replaced, Path.final, Plan.content, hbytes]

end

theorem not_needed {file : FileName} (hfile : file = .manifest ∨ file = .report ∨
    file = .runtimeModel) : ¬ Needed state (.final file) := by
  rintro ⟨-, hneeded⟩
  rcases hfile with rfl | rfl | rfl <;> exact hneeded

theorem Assembled.safe_complete
    (h : Assembled compilation written state dense packs metadata runtimeModel)
    (hreport : compilation.finalizeCalibration dense.counts = .ok report)
    (hmanifest : compilation.buildManifest written state.dense state.experts metadata runtimeModel
      report = .ok manifest) :
    Durable.Safe (Recoverable compilation) (Fruitless compilation)
      (fun _ disk => Published compilation disk)
      (do
        replaceFile .manifest (.manifest manifest)
        replaceFile .report .report
        replaceFile .completed (.marker (compilation.marker manifest))
        fsyncDirectory
        let completed ← files
        if compilation.validateContainer completed then do
          unlink (.final .state)
          fsyncDirectory
          publish
          fsyncDirectory
        else .throw .validation : Program Fields Rest Unit) ⟨some written, none⟩ := by
  have hprepared := h.prepared hreport hmanifest
  have hstored := h.stored manifest
  have hfirst := h.committed.resumable
  have hsecond := hfirst.of_replaced (not_needed (.inl rfl)) (by simp) (.manifest manifest)
  have hthird := hsecond.of_replaced (not_needed (.inr (.inl rfl))) (by simp) .report
  obtain ⟨htorn, hput⟩ := hthird.temporaries .completed (by simp)
    (.marker (compilation.marker manifest))
  have hcomplete : Recoverable compilation ⟨some (replaced (replaced (replaced written .manifest
      (.manifest manifest)) .report .report) .completed
        (.marker (compilation.marker manifest))), none⟩ :=
    .complete ⟨_, hprepared, hstored⟩
  apply Durable.Safe.bind
    (safe_replaceFile_of_resumable hfirst (not_needed (.inl rfl)) (by simp))
  rintro value disk rfl
  apply Durable.Safe.bind
    (safe_replaceFile_of_resumable hsecond (not_needed (.inr (.inl rfl))) (by simp))
  rintro value disk rfl
  apply Durable.Safe.bind
    (safe_replaceFile (.journaled hthird) (.journaled htorn) (.journaled hput) hcomplete)
  rintro value disk rfl
  apply Durable.Safe.bind (safe_fsyncDirectory hcomplete)
  rintro value disk rfl
  apply Durable.Safe.bind (safe_files hcomplete)
  rintro completed disk ⟨rfl, rfl⟩
  split
  next hvalid => exact safe_unlink_publish (hprepared.planned hstored hvalid) hstored
  next hinvalid => exact ⟨hcomplete, ⟨rfl, hprepared.not_planned hstored hinvalid⟩⟩

section

variable (h : Committed compilation written state dense packs [])
  (hcomponents : compilation.components = .ok ())

include h hcomponents

theorem Committed.assembled {copied : Directory Fields Rest}
    (hmetadata : compilation.metadata = .ok metadata)
    (hmodel : compilation.runtimeModel = .ok runtimeModel)
    (hresumable : Resumable compilation copied state)
    (hcopied : ∀ path, copied.get path = copiedContent written metadata path) :
    Assembled compilation (replaced copied .runtimeModel (.bytes runtimeModel)) state dense packs
      metadata runtimeModel := by
  have hsame : ∀ path : Path, (∀ name, path.file ≠ .metadata name) → path.file ≠ .runtimeModel →
      (replaced copied .runtimeModel (.bytes runtimeModel)).get path = written.get path := by
    rintro ⟨file, temporary⟩ hfile hother
    rw [get_replaced, if_neg fun heq => hother (by rw [heq]; rfl),
      if_neg fun heq => hother (by rw [heq]), hcopied]
    cases file with
    | metadata name => exact absurd rfl (hfile name)
    | _ => rfl
  have hother : ∀ name temporary, (replaced copied .runtimeModel (.bytes runtimeModel)).get
      ⟨.metadata name, temporary⟩ = copiedContent written metadata ⟨.metadata name, temporary⟩ := by
    intro name temporary
    rw [get_replaced, if_neg (by simp [Path.final]), if_neg (by simp), hcopied]
  have hunnamed : ∀ name temporary, name ∉ metadata.map Prod.fst →
      written.get ⟨.metadata name, temporary⟩ = none := by
    intro name temporary hname
    rw [Option.eq_none_iff_forall_ne_some]
    intro content hcontent
    obtain ⟨entries, hentries, entry, hentry, rfl⟩ :=
      h.resumable.metadata name temporary (by rw [hcontent]; rfl)
    obtain rfl : entries = metadata := Except.ok.inj (hentries.symm.trans hmetadata)
    exact hname (List.mem_map_of_mem hentry)
  refine ⟨⟨hresumable.of_replaced (not_needed (.inr (.inr rfl))) (by simp) _, ⟨?_, ?_, ?_, ?_⟩,
    h.denseWritten, h.denseEntries, ?_, h.packed, h.entries, ?_⟩, hcomponents, hmetadata, hmodel,
    ?_, ?_, ?_⟩
  · rintro ⟨file, temporary⟩ hpath
    cases file with
    | metadata name => cases hpath
    | runtimeModel =>
      obtain rfl : temporary = true := hpath
      rw [get_replaced, if_neg (by simp [Path.final]), if_pos rfl]
    | _ =>
      rw [hsame _ (by simp) (by simp)]
      exact h.clean.temporaries _ hpath
  · rintro ⟨file, temporary⟩ hpath
    cases file with
    | experts index =>
      rw [hsame _ (by simp) (by simp)]
      exact h.clean.packs _ hpath
    | _ => cases hpath
  · rw [hsame _ (by simp [Path.final]) (by simp [Path.final])]
    exact h.clean.manifest
  · rw [hsame _ (by simp [Path.final]) (by simp [Path.final])]
    exact h.clean.report
  · rw [hsame _ (by simp [Path.final]) (by simp [Path.final])]
    exact h.denseBytes
  · intro index pack hpack
    rw [hsame _ (by simp [Path.final]) (by simp [Path.final])]
    exact h.packBytes index pack hpack
  · intro name
    rw [Path.final, hother]
    simp only [copiedContent]
    cases hname : metadataOf name metadata with
    | some payload => rfl
    | none =>
      rw [hunnamed name false]
      · rfl
      · rw [← metadataOf_isSome, hname]
        simp
  · intro name
    rw [hother]
    simp only [copiedContent]
    by_cases hname : name ∈ metadata.map Prod.fst
    · rw [if_pos hname]
    · rw [if_neg hname, hunnamed name true hname]
  · rw [get_replaced, if_pos rfl]

theorem safe_finish {counts : CalibrationCounts} (hcounts : compilation.finalizeCalibration counts =
      compilation.finalizeCalibration dense.counts) :
    Durable.Safe (Recoverable compilation) (Fruitless compilation)
      (fun _ disk => Published compilation disk) (compilation.finish state counts)
      ⟨some written, none⟩ := by
  refine Durable.Safe.bind_ofExcept (.journaled h.resumable) ?_ ?_
  case refine_2 =>
    rintro error herror
    refine ⟨rfl, ?_⟩
    rintro ⟨plan, hplan⟩
    rw [hplan.metadata] at herror
    cases herror
  intro entries hmetadata
  apply Durable.Safe.bind (safe_copyMetadata hmetadata h.resumable fun _ => id)
  rintro value disk ⟨copied, rfl, hresumable, hcopied⟩
  refine Durable.Safe.bind_ofExcept (.journaled hresumable) ?_ ?_
  case refine_2 =>
    rintro error herror
    refine ⟨rfl, ?_⟩
    rintro ⟨plan, hplan⟩
    rw [hplan.runtimeModel] at herror
    cases herror
  intro model hmodel
  apply Durable.Safe.bind
    (safe_replaceFile_of_resumable hresumable (not_needed (.inr (.inr rfl))) (by simp))
  rintro value disk rfl
  have hassembled := h.assembled hcomponents hmetadata hmodel hresumable hcopied
  have hjournaled : Recoverable compilation
      ⟨some (replaced copied .runtimeModel (.bytes model)), none⟩ :=
    .journaled hassembled.committed.resumable
  apply Durable.Safe.bind (safe_fsyncDirectory hjournaled)
  rintro value disk rfl
  refine Durable.Safe.bind_ofExcept hjournaled ?_ ?_
  case refine_2 =>
    rintro error herror
    refine ⟨rfl, ?_⟩
    rintro ⟨plan, hplan⟩
    obtain ⟨report, hreport, -⟩ := hplan.manifest
    rw [(hassembled.of_prepared hplan.toPrepared).1, ← hcounts, herror] at hreport
    cases hreport
  intro report hreport
  rw [hcounts] at hreport
  apply Durable.Safe.bind (safe_files hjournaled)
  rintro read disk ⟨rfl, rfl⟩
  refine Durable.Safe.bind_ofExcept hjournaled ?_ ?_
  case refine_2 =>
    rintro error herror
    refine ⟨rfl, ?_⟩
    rintro ⟨plan, hplan⟩
    obtain ⟨hdense, hpacks, hentries, hmodelEq⟩ := hassembled.of_prepared hplan.toPrepared
    obtain ⟨report', hreport', hmanifest⟩ := hplan.manifest
    rw [hdense] at hreport'
    obtain rfl : report' = report := Except.ok.inj (hreport'.symm.trans hreport)
    have hbuilt := hmanifest _ (hassembled.payload_eq hdense hpacks)
    obtain ⟨hdenseEntries, hexpertEntries⟩ := hassembled.entries_eq hdense hpacks
    rw [← hdenseEntries, ← hexpertEntries, hentries, hmodelEq, herror] at hbuilt
    cases hbuilt
  intro manifest hmanifest
  exact hassembled.safe_complete hreport hmanifest

end

end QuantumLlm.ExpertPack
