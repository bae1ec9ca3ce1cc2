import QuantumLlm.ExpertPack.Finish

/-!
# Interrupted compilations

Any number of crashes, each at any write once the journal is there, and a run with
`--resume` behind each: nothing that a crash leaves behind stops the next run, and
what is published in the end is what one undisturbed run publishes.
-/

namespace QuantumLlm.ExpertPack

open List

variable {Tensor Expert Fields Rest : Type}
  {compilation : Compilation Tensor Expert Fields Rest} {written written' : Directory Fields Rest}
  {state : State Fields} {plan : Plan Fields Rest}

open Compilation

theorem safe_unlinkAll {paths : List Path} :
    ∀ {written : Directory Fields Rest}, Resumable compilation written state →
      (∀ path ∈ paths, ¬ Needed state path ∧ ∀ name, path.file ≠ .metadata name) →
      Durable.Safe (Recoverable compilation) (Fruitless compilation)
        (fun _ disk => ∃ written', disk = ⟨some written', none⟩ ∧
          Resumable compilation written' state ∧
          ∀ path, written'.get path = if path ∈ paths then none else written.get path)
        (unlinkAll paths) ⟨some written, none⟩ := by
  induction paths with
  | nil =>
    intro written h _
    exact ⟨.journaled h, written, rfl, h, by simp⟩
  | cons path rest ih =>
    intro written h hpaths
    have herased : Resumable compilation (written.erase path) state := by
      refine h.of_other (fun other => other = path) ?_ ?_
      · intro other hother
        rw [Files.get_erase, if_neg hother]
      · rintro other rfl
        exact hpaths other mem_cons_self
    rw [unlinkAll]
    apply Durable.Safe.bind (safe_update (.journaled h) (.journaled herased))
    rintro value disk rfl
    refine (ih herased fun other hother => hpaths other (mem_cons_of_mem _ hother)).mono
      (fun _ _ hfails => hfails) ?_
    rintro - disk ⟨written', rfl, hresumable, hget⟩
    refine ⟨written', rfl, hresumable, ?_⟩
    intro other
    rw [hget, Files.get_erase]
    by_cases hsame : other = path
    · simp [hsame]
    · simp [hsame]

theorem mem_discarded {path : Path} : path ∈ discarded written state ↔
    (written.get path).isSome ∧ (isTemporary path = true ∨ isUncommitted state path = true ∨
      path = .final .manifest ∨ path = .final .report ∨ path = .final .completed) := by
  simp only [discarded, mem_append, mem_filter, Files.mem_paths, mem_cons,
    not_mem_nil, or_false, decide_eq_true_eq]
  tauto

theorem Resumable.discards (h : Resumable compilation written state) :
    ∀ path ∈ discarded written state,
      ¬ Needed state path ∧ ∀ name, path.file ≠ .metadata name := by
  rintro ⟨file, temporary⟩ hpath
  obtain ⟨hsome, hkind⟩ := mem_discarded.1 hpath
  have hincomplete := h.incomplete
  rcases hkind with htemporary | huncommitted | hfinal | hfinal | hfinal
  · cases file with
    | metadata name => cases htemporary
    | _ =>
      obtain rfl : temporary = true := htemporary
      exact ⟨not_needed_temporary, by simp⟩
  · cases file with
    | experts index =>
      cases temporary with
      | true => cases huncommitted
      | false =>
        refine ⟨?_, by simp⟩
        rintro ⟨-, hmem⟩
        simp only [isUncommitted, decide_eq_true_eq] at huncommitted
        exact huncommitted hmem
    | _ => cases huncommitted
  · cases hfinal
    exact ⟨fun hneeded => hneeded.2, by simp⟩
  · cases hfinal
    exact ⟨fun hneeded => hneeded.2, by simp⟩
  · cases hfinal
    rw [Path.final] at hincomplete
    rw [hincomplete] at hsome
    cases hsome

theorem clean_of_discarded (hget : ∀ path, written'.get path =
    if path ∈ discarded written state then none else written.get path) : Clean written' state := by
  have hnone : ∀ path, (isTemporary path = true ∨ isUncommitted state path = true ∨
      path = .final .manifest ∨ path = .final .report ∨ path = .final .completed) →
      written'.get path = none := by
    intro path hkind
    rw [hget]
    split
    next => rfl
    next hkept =>
      rw [mem_discarded, not_and] at hkept
      by_contra hsome
      exact hkept (Option.ne_none_iff_isSome.1 hsome) hkind
  exact ⟨fun path hpath => hnone path (.inl hpath), fun path hpath => hnone path (.inr (.inl hpath)),
    hnone _ (.inr (.inr (.inl rfl))), hnone _ (.inr (.inr (.inr (.inl rfl))))⟩

theorem checkRecords_ok {index : Nat} {bytes : List UInt8} {entries : List (ExpertEntry Fields)} :
    ∀ {cursor limit : Nat},
      Tiled ExpertEntry.offset ExpertEntry.storedBytes cursor entries limit →
      (∀ entry ∈ entries, compilation.validExpert bytes entry = true) →
      compilation.checkRecords index bytes cursor entries = .ok limit := by
  induction entries with
  | nil =>
    rintro cursor limit rfl -
    rfl
  | cons entry rest ih =>
    rintro cursor limit ⟨hoffset, hrest⟩ hvalid
    rw [checkRecords, if_neg (not_not.2 hoffset), if_neg (not_not.2 (hvalid entry mem_cons_self))]
    exact ih hrest fun other hother => hvalid other (mem_cons_of_mem _ hother)

section

variable (h : Resumable compilation written state) (hplan : Planned compilation plan)

include h hplan

theorem checkDense_ok :
    compilation.checkDense written state.dense = .ok () := by
  rw [checkDense]
  split
  next => rfl
  next hsome =>
    obtain ⟨dense, hwrite, hentries, hbytes, -⟩ := h.dense.resolve_left hsome
    obtain rfl : plan.dense = dense := Except.ok.inj (hplan.dense.symm.trans hwrite)
    have hsound := writeDenseRecords_sound (DenseRecords.Sound.initial compilation) hwrite
    have htotal := hsound.tiled.sum_eq
    rw [Nat.zero_add] at htotal
    have hpayload : payload written .dense = some plan.dense.bytes := by
      rw [payload, hbytes]
    have hall : state.dense.all (compilation.validDense plan.dense.bytes) = true := by
      rw [all_eq_true, hentries]
      exact hplan.valid_records.1
    rw [hpayload]
    simp only
    rw [if_neg (not_not.2 hall), hentries, if_neg (not_not.2 htotal.symm)]

theorem checkPacks_ok (indices : List Nat)
    (hindices : ∀ index ∈ indices, index ∈ state.experts.map fun entry => entry.pack) :
    compilation.checkPacks written state.experts indices = .ok () := by
  obtain ⟨packs, remaining, hpacked, hentries, hbytes⟩ := h.experts
  have hplanned := hpacked.of_planned hplan.packs
  induction indices with
  | nil => rfl
  | cons index rest ih =>
    have hmem := hindices index mem_cons_self
    rw [hentries, hpacked.mem_indices] at hmem
    have hpack : packs[index]? = some packs[index] := getElem?_eq_getElem hmem
    have hpayload : payload written (.experts index) = some packs[index].bytes := by
      rw [payload, hbytes index _ hpack]
    obtain ⟨added, -, hsound⟩ := hpacked.sound index _ hpack
    have hvalid : ∀ entry ∈ packs[index].entries,
        compilation.validExpert packs[index].bytes entry = true := by
      intro entry hentry
      obtain ⟨later, hlater⟩ := hplanned
      have hplannedPack : plan.packs[index]? = some packs[index] := by
        rw [← hlater, getElem?_append_left hmem, hpack]
      have hin : entry ∈ plan.entries :=
        mem_flatMap.2 ⟨packs[index], mem_of_getElem? hplannedPack, hentry⟩
      obtain ⟨pack, hpackEq, hentryValid⟩ := hplan.valid_records.2 entry hin
      rw [hsound.numbered entry hentry, hplannedPack, Option.some.injEq] at hpackEq
      rw [hpackEq]
      exact hentryValid
    have hrecords : compilation.checkRecords index packs[index].bytes 0
        (state.experts.filter fun entry => entry.pack = index) =
        .ok packs[index].bytes.length := by
      rw [hentries, hpacked.filter_eq hpack]
      exact checkRecords_ok hsound.tiled hvalid
    rw [checkPacks, hpayload]
    simp only
    rw [hrecords]
    change (if packs[index].bytes.length ≠ packs[index].bytes.length then _ else _) = _
    rw [if_neg (not_not.2 rfl)]
    exact ih fun other hother => hindices other (mem_cons_of_mem _ hother)

theorem validateResumePrefix_ok :
    compilation.validateResumePrefix written state = .ok () := by
  have hnames : ¬ ((state.dense.map fun entry => entry.name) ≠ [] ∧
      (state.dense.map fun entry => entry.name) ≠
        compilation.dense.map compilation.denseName) := by
    rintro ⟨hsome, hne⟩
    rcases h.dense with hnil | ⟨dense, hwrite, hentries, -, -⟩
    · exact hsome (by rw [hnil]; rfl)
    · apply hne
      rw [hentries]
      exact (writeDenseRecords_sound (DenseRecords.Sound.initial compilation) hwrite).names
  have hkeys : ¬ ((state.experts.map fun entry => (entry.layer, entry.expert)) ≠
      (compilation.experts.map compilation.expertKey).take
        (state.experts.map fun entry => (entry.layer, entry.expert)).length) := by
    obtain ⟨packs, remaining, hpacked, hentries, -⟩ := h.experts
    obtain ⟨first, hsplit, hfirst⟩ := hpacked.split
    rw [not_not, hentries, hfirst, hsplit, map_append, take_left]
  have hpacks := checkPacks_ok h hplan (state.experts.map fun entry => entry.pack).dedup
    fun index hindex => mem_dedup.1 hindex
  simp only [validateResumePrefix, if_neg hnames, if_neg hkeys, checkDense_ok h hplan, hpacks]
  rfl

end

theorem safe_resume (h : Resumable compilation written state) (hclean : Clean written state) :
    Durable.Safe (Recoverable compilation) (Fruitless compilation)
      (fun _ disk => Published compilation disk) (compilation.resume state)
      ⟨some written, none⟩ := by
  rw [resume]
  apply Durable.Safe.bind (safe_commitDense h hclean)
  rintro ⟨state, counts⟩ disk ⟨written, dense, packs, remaining, rfl, hcommitted, hcounts⟩
  simp only at hcommitted hcounts ⊢
  refine Durable.Safe.bind_ofExcept (.journaled hcommitted.resumable) ?_ ?_
  case refine_2 =>
    rintro error herror
    refine ⟨rfl, ?_⟩
    rintro ⟨plan, hplan⟩
    rw [hplan.components] at herror
    cases herror
  intro value hcomponents
  have hlength : (state.experts.map fun entry => entry.pack).dedup.length = packs.length := by
    rw [hcommitted.entries, hcommitted.packed.length_dedup]
  have hremaining : compilation.experts.drop state.experts.length = remaining := by
    rw [hcommitted.entries, hcommitted.packed.drop_eq]
  rw [hlength, hremaining]
  apply Durable.Safe.bind (safe_writeExpertPacks hcommitted le_rfl)
  rintro state disk ⟨written, packs, rfl, hcommitted⟩
  exact safe_finish hcommitted hcomponents hcounts

theorem resumable_newState : Resumable compilation
      (replaced ([] : Directory Fields Rest) .state (.state compilation.newState))
      compilation.newState ∧
    Clean (replaced ([] : Directory Fields Rest) .state (.state compilation.newState))
      compilation.newState := by
  have hempty : Clean ([] : Directory Fields Rest) compilation.newState :=
    ⟨fun _ _ => rfl, fun _ _ => rfl, rfl, rfl⟩
  refine ⟨⟨?_, rfl, .inl rfl, ⟨[], compilation.experts, Packed.initial compilation, rfl, ?_⟩, ?_, ?_⟩,
    hempty.of_replaced rfl (by simp) fun _ => id⟩
  · rw [get_replaced, if_pos rfl]
  · exact nofun
  · rw [get_replaced, if_neg (by simp [Path.final]), if_neg (by simp [Path.final])]
    rfl
  · intro name temporary hsome
    rw [get_replaced, if_neg (by simp [Path.final]), if_neg (by simp)] at hsome
    cases hsome

theorem run_compile_published {disk : Disk Fields Rest} (h : disk.output.isSome) :
    (compilation.compile true).run disk = (.error .outputExists, disk) := by
  simp only [compile, Durable.run, if_pos h]

theorem safe_compile {disk : Disk Fields Rest} (h : Recoverable compilation disk)
    (hunpublished : disk.output = none) :
    Durable.Safe (Recoverable compilation) (Fruitless compilation)
      (fun _ disk => Published compilation disk) (compilation.compile true) disk := by
  cases h with
  | published hplan hstored hstate => cases hunpublished
  | @complete written hcomplete =>
    obtain ⟨plan, hprepared, hstored⟩ := hcomplete
    have hthere : (written.get (.final .manifest)).isSome ∧
        (written.get (.final .completed)).isSome := by
      rw [hstored.get_eq (by simp), hstored.get_eq (by simp)]
      exact ⟨rfl, rfl⟩
    simp only [compile, Durable.Safe, Option.isSome_none, Bool.false_eq_true, if_false,
      not_true_eq_false]
    rw [if_pos hthere]
    exact safe_publishFinished ⟨plan, hprepared, hstored⟩
  | @journaled written state hjournal =>
    have hthere : ¬ ((written.get (.final .manifest)).isSome ∧
        (written.get (.final .completed)).isSome) := by
      rw [hjournal.incomplete]
      simp
    simp only [compile, Durable.Safe, Option.isSome_none, Bool.false_eq_true, if_false,
      not_true_eq_false]
    rw [if_neg hthere, hjournal.journal]
    simp only
    rw [if_neg (not_not.2 hjournal.contract)]
    apply Durable.Safe.bind (safe_unlinkAll hjournal hjournal.discards)
    rintro value disk ⟨kept, rfl, hresumable, hget⟩
    have hclean := clean_of_discarded hget
    apply Durable.Safe.bind (safe_files (.journaled hresumable))
    rintro read disk ⟨rfl, rfl⟩
    refine Durable.Safe.bind_ofExcept (.journaled hresumable) ?_ ?_
    case refine_2 =>
      rintro error herror
      refine ⟨rfl, ?_⟩
      rintro ⟨plan, hplan⟩
      rw [validateResumePrefix_ok hresumable hplan] at herror
      cases herror
    intro _ _
    exact safe_resume hresumable hclean

def hasJournal (disk : Disk Fields Rest) : Bool :=
  disk.unfinished.any fun written => (written.get (.final .state)).isSome

/-- Crashes of a first run once the journal was there, and of any number of runs behind it. -/
def Interrupted (compilation : Compilation Tensor Expert Fields Rest) :
    Disk Fields Rest → Prop :=
  (compilation.compile true).Crashes fun disk =>
    disk ∈ ((compilation.compile true).crashed {}).dropWhile fun disk => !hasJournal disk

/-- What a first run does once the journal is there. -/
def afterJournal (compilation : Compilation Tensor Expert Fields Rest) : Program Fields Rest Unit := do
  fsyncDirectory
  compilation.resume compilation.newState

theorem safe_afterJournal (compilation : Compilation Tensor Expert Fields Rest) :
    Durable.Safe (Recoverable compilation) (Fruitless compilation)
      (fun _ disk => Published compilation disk) (afterJournal compilation)
      ⟨some (replaced [] .state (.state compilation.newState)), none⟩ := by
  obtain ⟨hjournal, hclean⟩ := @resumable_newState _ _ _ _ compilation
  apply Durable.Safe.bind (safe_fsyncDirectory (.journaled hjournal))
  rintro value disk rfl
  exact safe_resume hjournal hclean

theorem run_compile_start : (compilation.compile true).run {} =
    (afterJournal compilation).run
      ⟨some (replaced [] .state (.state compilation.newState)), none⟩ :=
  rfl

theorem crashed_compile_start : ∃ earlier, (∀ disk ∈ earlier, hasJournal disk = false) ∧
    (compilation.compile true).crashed {} = earlier ++ (afterJournal compilation).crashed
      ⟨some (replaced [] .state (.state compilation.newState)), none⟩ := by
  refine ⟨[{}, ⟨some [], none⟩, ⟨some (Files.put [] ⟨.state, true⟩ .torn), none⟩,
    ⟨some ((Files.put [] ⟨.state, true⟩ .torn).put ⟨.state, true⟩
      (.state compilation.newState)), none⟩], ?_, rfl⟩
  intro disk hdisk
  simp only [mem_cons, not_mem_nil, or_false] at hdisk
  rcases hdisk with rfl | rfl | rfl | rfl
  · rfl
  · rfl
  · simp [hasJournal, Files.get_put, Path.final]
  · simp [hasJournal, Files.get_put, Path.final]

theorem Interrupted.recoverable {disk : Disk Fields Rest} (h : Interrupted compilation disk) :
    Recoverable compilation disk := by
  refine h.invariant ?_ ?_
  · intro first hfirst
    obtain ⟨earlier, hearlier, hcrashed⟩ := @crashed_compile_start _ _ _ _ compilation
    rw [hcrashed, dropWhile_append_of_pos] at hfirst
    · exact (safe_afterJournal compilation).of_mem_crashed
        ((dropWhile_sublist _).subset hfirst)
    · intro disk hdisk
      rw [hearlier disk hdisk]
      rfl
  · intro disk disk' hdisk hmem
    cases houtput : disk.output with
    | none => exact (safe_compile hdisk houtput).of_mem_crashed hmem
    | some written =>
      have hthere : disk.output.isSome := by rw [houtput]; rfl
      simp only [compile, Durable.crashed, if_pos hthere, mem_singleton] at hmem
      rw [hmem]
      exact hdisk

theorem Published.same {disk disk' : Disk Fields Rest} (h : Published compilation disk)
    (h' : Published compilation disk') : ∃ written written' : Directory Fields Rest,
      disk = ⟨none, some written⟩ ∧ disk' = ⟨none, some written'⟩ ∧
      (∀ path, written'.get path = written.get path) ∧
      compilation.validateContainer written' = true := by
  obtain ⟨plan, written, hplan, hstored, hstate, rfl⟩ := h
  obtain ⟨plan', written', hplan', hstored', hstate', rfl⟩ := h'
  obtain rfl := hplan.toPrepared.unique hplan'.toPrepared hstored
  refine ⟨written, written', rfl, rfl, ?_, hplan'.valid hstored'⟩
  intro path
  by_cases hpath : path = .final .state
  · rw [hpath, hstate, hstate']
  · rw [hstored path hpath, hstored' path hpath]

/-- One tensor and two experts in one pack. -/
def smallCompilation : Compilation Unit Nat Unit Unit where
  contractSha256 := 1
  dense := [()]
  denseName := fun _ => "embedding"
  denseFp4 := fun _ => false
  denseRecord := fun _ _ _ => .ok ([1, 2], (), ⟨0, 0, 0, 0⟩)
  experts := [0, 1]
  expertKey := fun expert => (0, expert)
  expertRecord := fun _ _ expert => .ok ([3, expert.toUInt8], ())
  predictedRecordBytes := 2
  maxExpertPackBytes := 4
  calibration := none
  components := .ok ()
  metadata := .ok [("tokenizer.json", [5])]
  runtimeModel := .ok [6]
  describe := fun _ _ => .ok ()
  sha256 := fun payload => payload.length
  contentSha256 := fun _ => 2
  fileSha256 := fun _ => 3
  validDense := fun _ _ => true
  validExpert := fun _ _ => true
  wellFormed := fun _ _ => true

theorem smallCompilation_ok : ((smallCompilation.compile true).run {}).1 = .ok () := by
  decide +kernel

end QuantumLlm.ExpertPack
