import QuantumLlm.ExpertPack.Plan

/-!
# Resuming

At every write of a conversion the directory is one of three things: a journal
with the packs that it names, a complete container that only lacks its name, or a
published container. From each of them a run with `--resume` goes on to the
container that an undisturbed run publishes.
-/

namespace QuantumLlm.ExpertPack

variable {Tensor Expert Fields Rest : Type}
  {compilation : Compilation Tensor Expert Fields Rest}

open Compilation

/-- A journal and what it names. -/
structure Resumable (compilation : Compilation Tensor Expert Fields Rest)
    (written : Directory Fields Rest) (state : State Fields) : Prop where
  journal : written.get (.final .state) = some (.state state)
  contract : state.contractSha256 = compilation.contractSha256
  dense : state.dense = [] ∨ ∃ pack,
    compilation.writeDenseRecords {} compilation.dense = .ok pack ∧ state.dense = pack.entries ∧
      written.get (.final .dense) = some (.bytes pack.bytes) ∧
      ∀ source, compilation.calibration = some source →
        state.activationCalibration = some (source.snapshot pack.counts)
  experts : ∃ packs remaining, compilation.Packed packs remaining ∧
    (state.experts = packs.flatMap fun pack => pack.entries) ∧
    ∀ (index : Nat) (pack : ExpertRecords Fields), packs[index]? = some pack →
      written.get (.final (.experts index)) = some (.bytes pack.bytes)
  incomplete : written.get (.final .completed) = none
  metadata : ∀ name temporary, (written.get ⟨.metadata name, temporary⟩).isSome →
    ∃ entries, compilation.metadata = .ok entries ∧ ∃ entry ∈ entries, entry.1 = name

/-- Everything but the name, and perhaps with the journal. -/
def Complete (compilation : Compilation Tensor Expert Fields Rest)
    (written : Directory Fields Rest) : Prop :=
  ∃ plan : Plan Fields Rest, Prepared compilation plan ∧ plan.Stored written

/-- The disks on which a run may find itself. -/
inductive Recoverable (compilation : Compilation Tensor Expert Fields Rest) :
    Disk Fields Rest → Prop where
  | journaled {written : Directory Fields Rest} {state : State Fields} :
      Resumable compilation written state → Recoverable compilation ⟨some written, none⟩
  | complete {written : Directory Fields Rest} :
      Complete compilation written → Recoverable compilation ⟨some written, none⟩
  | published {written : Directory Fields Rest} {plan : Plan Fields Rest} :
      Planned compilation plan → plan.Stored written →
      written.get (.final .state) = none → Recoverable compilation ⟨none, some written⟩

/-- Where a run fails there is nothing to publish. -/
def Fruitless (compilation : Compilation Tensor Expert Fields Rest) (_ : Failure)
    (disk : Disk Fields Rest) : Prop :=
  disk.output = none ∧ ¬ ∃ plan : Plan Fields Rest, Planned compilation plan

/-- A run that is done has published the plan. -/
def Published (compilation : Compilation Tensor Expert Fields Rest) (disk : Disk Fields Rest) :
    Prop :=
  ∃ (plan : Plan Fields Rest) (written : Directory Fields Rest), Planned compilation plan ∧
    plan.Stored written ∧ written.get (.final .state) = none ∧ disk = ⟨none, some written⟩

/-- A file that a journal relies on. -/
def Needed (state : State Fields) (path : Path) : Prop :=
  path.temporary = false ∧
    match path.file with
    | .state => True
    | .completed => True
    | .dense => state.dense ≠ []
    | .experts index => index ∈ state.experts.map fun entry => entry.pack
    | _ => False

variable {written written' : Directory Fields Rest} {state : State Fields}

theorem Resumable.of_same (h : Resumable compilation written state)
    (hsame : ∀ path, Needed state path → written'.get path = written.get path)
    (hmetadata : ∀ name temporary, (written'.get ⟨.metadata name, temporary⟩).isSome →
      ∃ entries, compilation.metadata = .ok entries ∧ ∃ entry ∈ entries, entry.1 = name) :
    Resumable compilation written' state where
  journal := by
    rw [hsame _ ⟨rfl, trivial⟩]
    exact h.journal
  contract := h.contract
  dense := by
    rcases h.dense with hnil | ⟨pack, hwrite, hentries, hbytes, hcalibration⟩
    · exact .inl hnil
    · by_cases hnil : state.dense = []
      · exact .inl hnil
      · refine .inr ⟨pack, hwrite, hentries, ?_, hcalibration⟩
        rw [hsame _ ⟨rfl, hnil⟩]
        exact hbytes
  experts := by
    obtain ⟨packs, remaining, hpacked, hentries, hbytes⟩ := h.experts
    refine ⟨packs, remaining, hpacked, hentries, ?_⟩
    intro index pack hpack
    rw [hsame _ ⟨rfl, ?_⟩]
    · exact hbytes index pack hpack
    · change index ∈ state.experts.map fun entry => entry.pack
      rw [hentries, hpacked.mem_indices]
      exact (List.getElem?_eq_some_iff.1 hpack).1
  incomplete := by
    rw [hsame _ ⟨rfl, trivial⟩]
    exact h.incomplete
  metadata := hmetadata

theorem Resumable.of_other (h : Resumable compilation written state) (changed : Path → Prop)
    (hsame : ∀ path, ¬ changed path → written'.get path = written.get path)
    (hchanged : ∀ path, changed path → ¬ Needed state path ∧ ∀ name, path.file ≠ .metadata name) :
    Resumable compilation written' state := by
  refine h.of_same ?_ ?_
  · intro path hneeded
    exact hsame path fun hpath => (hchanged path hpath).1 hneeded
  · intro name temporary hsome
    rw [hsame _ fun hpath => (hchanged _ hpath).2 name rfl] at hsome
    exact h.metadata name temporary hsome

/-- The directory after a file was replaced. -/
def replaced (written : Directory Fields Rest) (file : FileName) (content : Content Fields Rest) :
    Directory Fields Rest :=
  ((written.put ⟨file, true⟩ .torn).put ⟨file, true⟩ content).rename ⟨file, true⟩ ⟨file, false⟩

theorem get_replaced (written : Directory Fields Rest) (file : FileName)
    (content : Content Fields Rest) (path : Path) :
    (replaced written file content).get path =
      if path = .final file then some content else if path = ⟨file, true⟩ then none
      else written.get path := by
  have hcontent : ((written.put ⟨file, true⟩ .torn).put ⟨file, true⟩ content).get ⟨file, true⟩ =
      some content := by
    rw [Files.get_put, if_pos rfl]
  rw [replaced, Files.get_rename hcontent, Files.get_put, Files.get_put]
  by_cases htemporary : path = ⟨file, true⟩
  · simp [htemporary, Path.final]
  · simp [htemporary, Path.final]

section

variable {fails : Failure → Disk Fields Rest → Prop} {holds : Disk Fields Rest → Prop}
  {change : Directory Fields Rest → Directory Fields Rest} {file : FileName}
  {content : Content Fields Rest}

theorem safe_update (hbefore : holds ⟨some written, none⟩)
    (hafter : holds ⟨some (change written), none⟩) :
    Durable.Safe holds fails (fun _ disk => disk = ⟨some (change written), none⟩)
      (update change) ⟨some written, none⟩ :=
  ⟨hbefore, hafter, rfl⟩

theorem safe_fsyncDirectory {disk : Disk Fields Rest} (h : holds disk) :
    Durable.Safe holds fails (fun _ disk' => disk' = disk) fsyncDirectory disk :=
  ⟨h, h, rfl⟩

theorem safe_files (h : holds ⟨some written, none⟩) :
    Durable.Safe holds fails
      (fun value disk => written = value ∧ disk = ⟨some written, none⟩) files
      ⟨some written, none⟩ :=
  ⟨h, rfl, rfl⟩

theorem safe_replaceFile (hbefore : holds ⟨some written, none⟩)
    (htorn : holds ⟨some (written.put ⟨file, true⟩ .torn), none⟩)
    (hput : holds ⟨some ((written.put ⟨file, true⟩ .torn).put ⟨file, true⟩ content), none⟩)
    (hafter : holds ⟨some (replaced written file content), none⟩) :
    Durable.Safe holds fails
      (fun _ disk => disk = ⟨some (replaced written file content), none⟩)
      (replaceFile file content) ⟨some written, none⟩ :=
  ⟨hbefore, htorn, hput, hafter, rfl⟩

end

variable {plan : Plan Fields Rest} {file : FileName} {content : Content Fields Rest}
  {state' : State Fields} {dense : DenseRecords Fields} {packs : List (ExpertRecords Fields)}
  {expert : Expert} {remaining rest : List Expert} {pack : ExpertRecords Fields}

theorem Plan.Stored.erase_state (h : plan.Stored written) :
    plan.Stored (written.erase (.final .state)) := by
  intro path hpath
  rw [Files.get_erase, if_neg hpath]
  exact h path hpath

theorem Plan.Stored.get_eq (h : plan.Stored written)
    (hfile : file ≠ .state) : written.get (.final file) = plan.content (.final file) :=
  h _ fun hstate => hfile (congrArg Path.file hstate)

theorem safe_publish (hplan : Planned compilation plan)
    (hstored : plan.Stored written) (hstate : written.get (.final .state) = none) :
    Durable.Safe (Recoverable compilation) (Fruitless compilation)
      (fun _ disk => Published compilation disk) (publish >>= fun _ => fsyncDirectory)
      ⟨some written, none⟩ :=
  ⟨.complete ⟨plan, hplan.toPrepared, hstored⟩, .published hplan hstored hstate,
    .published hplan hstored hstate, plan, written, hplan, hstored, hstate, rfl⟩

theorem safe_unlink_publish (hplan : Planned compilation plan) (hstored : plan.Stored written) :
    Durable.Safe (Recoverable compilation) (Fruitless compilation)
      (fun _ disk => Published compilation disk)
      (do
        unlink (.final .state)
        fsyncDirectory
        publish
        fsyncDirectory : Program Fields Rest Unit) ⟨some written, none⟩ := by
  have herased : Recoverable compilation ⟨some (written.erase (.final .state)), none⟩ :=
    .complete ⟨plan, hplan.toPrepared, hstored.erase_state⟩
  apply Durable.Safe.bind (safe_update (.complete ⟨plan, hplan.toPrepared, hstored⟩) herased)
  rintro - - rfl
  apply Durable.Safe.bind (safe_fsyncDirectory herased)
  rintro - - rfl
  exact safe_publish hplan hstored.erase_state (by rw [Files.get_erase, if_pos rfl])

theorem safe_publishFinished (h : Complete compilation written) :
    Durable.Safe (Recoverable compilation) (Fruitless compilation)
      (fun _ disk => Published compilation disk) compilation.publishFinished
      ⟨some written, none⟩ := by
  obtain ⟨plan, hprepared, hstored⟩ := h
  have hcomplete : Recoverable compilation ⟨some written, none⟩ :=
    .complete ⟨plan, hprepared, hstored⟩
  apply Durable.Safe.bind (safe_files hcomplete)
  rintro value disk ⟨rfl, rfl⟩
  split
  next hvalid =>
    have hplan := hprepared.planned hstored hvalid
    have hreport : (written.get (.final .report)).isSome = true := by
      rw [hstored.get_eq (by simp)]
      rfl
    rw [if_pos hreport]
    split
    next => exact safe_unlink_publish hplan hstored
    next hstate => exact safe_publish hplan hstored (by simpa using hstate)
  next hinvalid => exact ⟨hcomplete, ⟨rfl, hprepared.not_planned hstored hinvalid⟩⟩

/-- Nothing is left that is not committed. -/
structure Clean (written : Directory Fields Rest) (state : State Fields) : Prop where
  temporaries : ∀ path, isTemporary path = true → written.get path = none
  packs : ∀ path, isUncommitted state path = true → written.get path = none
  manifest : written.get (.final .manifest) = none
  report : written.get (.final .report) = none

/-- The dense pack and some expert packs are in place, and in the journal. -/
structure Committed (compilation : Compilation Tensor Expert Fields Rest)
    (written : Directory Fields Rest) (state : State Fields) (dense : DenseRecords Fields)
    (packs : List (ExpertRecords Fields)) (remaining : List Expert) : Prop where
  resumable : Resumable compilation written state
  clean : Clean written state
  denseWritten : compilation.writeDenseRecords {} compilation.dense = .ok dense
  denseEntries : state.dense = dense.entries
  denseBytes : written.get (.final .dense) = some (.bytes dense.bytes)
  packed : compilation.Packed packs remaining
  entries : state.experts = packs.flatMap fun pack => pack.entries
  packBytes : ∀ (index : Nat) (pack : ExpertRecords Fields), packs[index]? = some pack →
    written.get (.final (.experts index)) = some (.bytes pack.bytes)

theorem not_needed_temporary : ¬ Needed state ⟨file, true⟩ :=
  fun hneeded => Bool.noConfusion hneeded.1

section

variable (h : Resumable compilation written state)

include h

theorem Resumable.of_replaced
    (hneeded : ¬ Needed state (.final file)) (hmetadata : ∀ name, file ≠ .metadata name)
    (content : Content Fields Rest) : Resumable compilation (replaced written file content) state := by
  refine h.of_other (fun path => path = ⟨file, true⟩ ∨ path = .final file) ?_ ?_
  · intro path hpath
    rw [not_or] at hpath
    rw [get_replaced, if_neg hpath.2, if_neg hpath.1]
  · rintro path (rfl | rfl)
    · exact ⟨not_needed_temporary, hmetadata⟩
    · exact ⟨hneeded, hmetadata⟩

theorem Resumable.temporaries (file : FileName)
    (hmetadata : ∀ name, file ≠ .metadata name) (content : Content Fields Rest) :
    Resumable compilation (written.put ⟨file, true⟩ .torn) state ∧
      Resumable compilation ((written.put ⟨file, true⟩ .torn).put ⟨file, true⟩ content) state := by
  have hput : ∀ {written : Directory Fields Rest} (content : Content Fields Rest),
      Resumable compilation written state →
      Resumable compilation (written.put ⟨file, true⟩ content) state := by
    intro written content h
    refine h.of_other (fun path => path = ⟨file, true⟩) ?_ ?_
    · intro path hpath
      rw [Files.get_put, if_neg hpath]
    · rintro path rfl
      exact ⟨not_needed_temporary, hmetadata⟩
  exact ⟨hput _ h, hput _ (hput _ h)⟩

theorem safe_replaceFile_of_resumable (hneeded : ¬ Needed state (.final file))
    (hmetadata : ∀ name, file ≠ .metadata name) :
    Durable.Safe (Recoverable compilation) (Fruitless compilation)
      (fun _ disk => disk = ⟨some (replaced written file content), none⟩)
      (replaceFile file content) ⟨some written, none⟩ := by
  obtain ⟨htorn, hput⟩ := h.temporaries file hmetadata content
  exact safe_replaceFile (.journaled h) (.journaled htorn) (.journaled hput)
    (.journaled (h.of_replaced hneeded hmetadata content))

end

theorem Clean.of_replaced
    (h : Clean written state) (hfile : isUncommitted state' (.final file) = false)
    (hkept : file ≠ .manifest ∧ file ≠ .report)
    (hcommitted : ∀ path, isUncommitted state' path = true → isUncommitted state path = true) :
    Clean (replaced written file content) state' where
  temporaries := by
    intro path hpath
    rw [get_replaced]
    split
    next hsame =>
      rw [hsame] at hpath
      cases file <;> cases hpath
    next =>
      split
      next => rfl
      next => exact h.temporaries path hpath
  packs := by
    intro path hpath
    rw [get_replaced]
    split
    next hsame =>
      rw [hsame, hfile] at hpath
      cases hpath
    next =>
      split
      next => rfl
      next => exact h.packs path (hcommitted path hpath)
  manifest := by
    rw [get_replaced, if_neg (by simpa [Path.final] using hkept.1.symm), if_neg (by simp [Path.final])]
    exact h.manifest
  report := by
    rw [get_replaced, if_neg (by simpa [Path.final] using hkept.2.symm), if_neg (by simp [Path.final])]
    exact h.report

theorem Committed.commit
    (h : Committed compilation written state dense packs (expert :: remaining))
    (hfill : compilation.fillExpertPack packs.length {} (expert :: remaining) = .ok (pack, rest)) :
    Committed compilation
      (replaced
        (replaced written (.experts packs.length) (.bytes pack.bytes)) .state
        (.state { state with experts := state.experts ++ pack.entries }))
      { state with experts := state.experts ++ pack.entries } dense (packs ++ [pack]) rest := by
  have hpacked := h.packed.next hfill
  have hentries : state.experts ++ pack.entries =
      (packs ++ [pack]).flatMap fun pack => pack.entries := by
    rw [h.entries, List.flatMap_append, List.flatMap_singleton]
  have hbytes : ∀ (index : Nat) (other : ExpertRecords Fields), (packs ++ [pack])[index]? = some other →
      (replaced (replaced written (.experts packs.length) (.bytes pack.bytes))
        .state (.state { state with experts := state.experts ++ pack.entries })).get
          (.final (.experts index)) = some (.bytes other.bytes) := by
    intro index other hother
    rw [get_replaced, if_neg (by simp [Path.final]), if_neg (by simp [Path.final]), get_replaced]
    by_cases hlast : index = packs.length
    · rw [hlast, List.getElem?_append_right le_rfl, Nat.sub_self] at hother
      cases hother
      rw [if_pos (by rw [hlast])]
    · rw [if_neg (by simpa [Path.final] using hlast), if_neg (by simp [Path.final])]
      apply h.packBytes
      rwa [List.getElem?_append_left] at hother
      have hless := (List.getElem?_eq_some_iff.1 hother).1
      rw [List.length_append, List.length_singleton] at hless
      omega
  have hother : ∀ path : Path, path.file ≠ .state → path.file ≠ .experts packs.length →
      (replaced (replaced written (.experts packs.length) (.bytes pack.bytes))
        .state (.state { state with experts := state.experts ++ pack.entries })).get path =
        written.get path := by
    intro path hstate hexperts
    rw [get_replaced, if_neg (fun h => hstate (by rw [h]; rfl)),
      if_neg (fun h => hstate (by rw [h])), get_replaced,
      if_neg (fun h => hexperts (by rw [h]; rfl)), if_neg (fun h => hexperts (by rw [h]))]
  have hmem : packs.length ∈ (state.experts ++ pack.entries).map fun entry => entry.pack := by
    rw [hentries, hpacked.mem_indices]
    simp
  have hclean : Clean (replaced
      (replaced written (.experts packs.length) (.bytes pack.bytes)) .state
      (.state { state with experts := state.experts ++ pack.entries }))
      { state with experts := state.experts ++ pack.entries } := by
    have hplaced : Clean (replaced written (.experts packs.length) (.bytes pack.bytes))
        { state with experts := state.experts ++ pack.entries } := by
      apply h.clean.of_replaced ?_ (by simp) ?_
      · simp only [isUncommitted, Path.final, decide_eq_false_iff_not, not_not]
        exact hmem
      · rintro ⟨file, temporary⟩ hpath
        cases file with
        | experts index =>
          cases temporary with
          | true => cases hpath
          | false =>
            simp only [isUncommitted, decide_eq_true_eq, List.map_append, List.mem_append,
              not_or] at hpath ⊢
            exact hpath.1
        | _ => cases temporary <;> cases hpath
    exact hplaced.of_replaced rfl (by simp) fun _ => id
  refine ⟨⟨?_, h.resumable.contract, ?_, ⟨packs ++ [pack], rest, hpacked, hentries, hbytes⟩, ?_, ?_⟩,
    hclean, h.denseWritten, h.denseEntries, ?_, hpacked, hentries, hbytes⟩
  · rw [get_replaced, if_pos rfl]
  · rcases h.resumable.dense with hnil | ⟨denseRecords, hwrite, hdense, hget, hcalibration⟩
    · exact .inl hnil
    · refine .inr ⟨denseRecords, hwrite, hdense, ?_, hcalibration⟩
      rw [hother _ (by simp [Path.final]) (by simp [Path.final])]
      exact hget
  · rw [hother _ (by simp [Path.final]) (by simp [Path.final])]
    exact h.resumable.incomplete
  · intro name temporary hsome
    rw [hother _ (by simp) (by simp)] at hsome
    exact h.resumable.metadata name temporary hsome
  · rw [hother _ (by simp [Path.final]) (by simp [Path.final])]
    exact h.denseBytes

theorem Committed.not_needed_next
    (h : Committed compilation written state dense packs remaining) :
    ¬ Needed state (.final (.experts packs.length)) := by
  rintro ⟨-, hmem⟩
  change packs.length ∈ state.experts.map fun entry => entry.pack at hmem
  rw [h.entries, h.packed.mem_indices] at hmem
  exact Nat.lt_irrefl _ hmem

theorem safe_replaceState (h : Resumable compilation written state)
    (hafter : Resumable compilation (replaced written .state (.state state')) state') :
    Durable.Safe (Recoverable compilation) (Fruitless compilation)
      (fun _ disk => disk = ⟨some (replaced written .state (.state state')), none⟩)
      (replaceFile .state (.state state')) ⟨some written, none⟩ := by
  obtain ⟨htorn, hput⟩ := h.temporaries .state (by simp) (.state state')
  exact safe_replaceFile (.journaled h) (.journaled htorn) (.journaled hput) (.journaled hafter)

section

variable (h : Committed compilation written state dense packs (expert :: remaining))

include h

theorem safe_writeExpertPack :
    Durable.Safe (Recoverable compilation) (Fruitless compilation)
      (fun filled disk =>
        compilation.fillExpertPack packs.length {} (expert :: remaining) = .ok filled ∧
        disk = ⟨some (replaced written (.experts packs.length) (.bytes filled.1.bytes)), none⟩)
      (compilation.writeExpertPack packs.length (expert :: remaining)) ⟨some written, none⟩ := by
  obtain ⟨htorn, -⟩ := h.resumable.temporaries (.experts packs.length) (by simp) .torn
  refine ⟨.journaled h.resumable, ?_⟩
  cases hfill : compilation.fillExpertPack packs.length {} (expert :: remaining) with
  | error error =>
    refine ⟨.journaled htorn, ⟨rfl, ?_⟩⟩
    rintro ⟨plan, hplan⟩
    exact h.packed.not_planned hfill hplan.packs
  | ok filled =>
    obtain ⟨-, hput⟩ := h.resumable.temporaries (.experts packs.length) (by simp)
      (.bytes filled.1.bytes)
    have hplaced := h.resumable.of_replaced h.not_needed_next (by simp) (.bytes filled.1.bytes)
    exact ⟨.journaled htorn, .journaled hput, .journaled hplaced, .journaled hplaced, rfl, rfl⟩

theorem Committed.safe_commit
    (hfill : compilation.fillExpertPack packs.length {} (expert :: remaining) = .ok (pack, rest)) :
    Durable.Safe (Recoverable compilation) (Fruitless compilation)
      (fun _ disk => ∃ written', disk = ⟨some written', none⟩ ∧
        Committed compilation written' { state with experts := state.experts ++ pack.entries } dense
          (packs ++ [pack]) rest)
      (replaceFile .state (.state { state with experts := state.experts ++ pack.entries }))
      ⟨some (replaced written (.experts packs.length) (.bytes pack.bytes)), none⟩ := by
  have hplaced := h.resumable.of_replaced h.not_needed_next (by simp) (.bytes pack.bytes)
  have hcommitted := h.commit hfill
  refine (safe_replaceState hplaced hcommitted.resumable).mono (fun _ _ hfails => hfails) ?_
  rintro value disk rfl
  exact ⟨_, rfl, hcommitted⟩

end

theorem fillExpertPack_length {index : Nat} {filled : ExpertRecords Fields × List Expert}
    (hfill : compilation.fillExpertPack index {} (expert :: remaining) = .ok filled) :
    filled.2.length ≤ remaining.length := by
  obtain ⟨added, hadded, hne, -⟩ := fillExpertPack_spec hfill
  have hlength := congrArg List.length hadded
  have hpos := List.length_pos_iff.2 hne
  rw [List.length_append, List.length_cons] at hlength
  omega

theorem safe_writeExpertPacks {fuel : Nat} :
    ∀ {written : Directory Fields Rest} {state : State Fields}
      {packs : List (ExpertRecords Fields)} {remaining : List Expert},
      Committed compilation written state dense packs remaining → remaining.length ≤ fuel →
      Durable.Safe (Recoverable compilation) (Fruitless compilation)
        (fun state' disk => ∃ written' packs', disk = ⟨some written', none⟩ ∧
          Committed compilation written' state' dense packs' [])
        (compilation.writeExpertPacks state packs.length fuel remaining) ⟨some written, none⟩ := by
  induction fuel with
  | zero =>
    intro written state packs remaining h hfuel
    obtain rfl : remaining = [] := List.length_eq_zero_iff.1 (Nat.le_zero.1 hfuel)
    exact ⟨.journaled h.resumable, written, packs, rfl, h⟩
  | succ fuel ih =>
    intro written state packs remaining h hfuel
    cases remaining with
    | nil => exact ⟨.journaled h.resumable, written, packs, rfl, h⟩
    | cons expert remaining =>
      apply Durable.Safe.bind (safe_writeExpertPack h)
      rintro ⟨pack, rest⟩ disk ⟨hfill, rfl⟩
      apply Durable.Safe.bind (h.safe_commit hfill)
      rintro value disk ⟨written', rfl, hcommitted⟩
      have hcount := fillExpertPack_length hfill
      have hnext := ih hcommitted (hcount.trans (Nat.le_of_succ_le_succ hfuel))
      rw [List.length_append, List.length_singleton] at hnext
      exact hnext

section

variable (h : Resumable compilation written state) (hclean : Clean written state)

include h hclean

theorem Resumable.committed
    (hdense : compilation.writeDenseRecords {} compilation.dense = .ok dense)
    (hentries : state.dense = dense.entries)
    (hbytes : written.get (.final .dense) = some (.bytes dense.bytes)) :
    ∃ packs remaining, Committed compilation written state dense packs remaining := by
  obtain ⟨packs, remaining, hpacked, hexperts, hpacks⟩ := h.experts
  exact ⟨packs, remaining, h, hclean, hdense, hentries, hbytes, hpacked, hexperts, hpacks⟩

theorem safe_commitDense :
    Durable.Safe (Recoverable compilation) (Fruitless compilation)
      (fun committed disk => ∃ written' dense packs remaining, disk = ⟨some written', none⟩ ∧
        Committed compilation written' committed.1 dense packs remaining ∧
        compilation.finalizeCalibration committed.2 =
          compilation.finalizeCalibration dense.counts)
      (compilation.commitDense state) ⟨some written, none⟩ := by
  rw [commitDense]
  split
  next hnil =>
    obtain ⟨htorn, -⟩ := h.temporaries .dense (by simp) .torn
    refine ⟨.journaled h, ?_⟩
    cases hwrite : compilation.writeDenseRecords {} compilation.dense with
    | error error =>
      refine ⟨.journaled htorn, ⟨rfl, ?_⟩⟩
      rintro ⟨plan, hplan⟩
      rw [hplan.dense] at hwrite
      cases hwrite
    | ok dense =>
      obtain ⟨-, hput⟩ := h.temporaries .dense (by simp) (.bytes dense.bytes)
      have hfree : ¬ Needed state (.final .dense) := fun hneeded => hneeded.2 hnil
      have hplaced := h.of_replaced hfree (by simp) (.bytes dense.bytes)
      refine ⟨.journaled htorn, .journaled hput, .journaled hplaced, ?_⟩
      change Durable.Safe _ _ _ (replaceFile .state (.state { state with
        dense := dense.entries
        activationCalibration := compilation.journaledCalibration state dense.counts }) >>=
          fun _ => pure _) ⟨some (replaced written .dense (.bytes dense.bytes)), none⟩
      generalize hcalibration :
        compilation.journaledCalibration state dense.counts = calibration
      have hdenseClean : Clean (replaced written .dense (.bytes dense.bytes)) state :=
        hclean.of_replaced rfl (by simp) fun _ => id
      have hjournal : Resumable compilation (replaced
          (replaced written .dense (.bytes dense.bytes)) .state
          (.state { state with
            dense := dense.entries, activationCalibration := calibration }))
          { state with dense := dense.entries, activationCalibration := calibration } := by
        obtain ⟨packs, remaining, hpacked, hexperts, hbytes⟩ := hplaced.experts
        refine ⟨?_, h.contract, .inr ⟨dense, hwrite, rfl, ?_, ?_⟩,
          ⟨packs, remaining, hpacked, hexperts, ?_⟩, ?_, ?_⟩
        · rw [get_replaced, if_pos rfl]
        · rw [get_replaced, if_neg (by simp [Path.final]), if_neg (by simp [Path.final]),
            get_replaced, if_pos rfl]
        · intro source hsource
          rw [← hcalibration, journaledCalibration, hsource]
        · intro index pack hpack
          rw [get_replaced, if_neg (by simp [Path.final]), if_neg (by simp [Path.final])]
          exact hbytes index pack hpack
        · rw [get_replaced, if_neg (by simp [Path.final]), if_neg (by simp [Path.final])]
          exact hplaced.incomplete
        · intro name temporary hsome
          rw [get_replaced, if_neg (by simp [Path.final]), if_neg (by simp)] at hsome
          exact hplaced.metadata name temporary hsome
      have hjournalClean : Clean (replaced (replaced written .dense (.bytes dense.bytes)) .state
          (.state { state with
            dense := dense.entries, activationCalibration := calibration }))
          { state with dense := dense.entries, activationCalibration := calibration } :=
        hdenseClean.of_replaced rfl (by simp) fun _ => id
      obtain ⟨packs, remaining, hcommitted⟩ := hjournal.committed hjournalClean hwrite rfl (by
        rw [get_replaced, if_neg (by simp [Path.final]), if_neg (by simp [Path.final]),
          get_replaced, if_pos rfl])
      apply Durable.Safe.bind (safe_replaceState hplaced hjournal)
      rintro value disk rfl
      exact ⟨.journaled hjournal, _, dense, packs, remaining, rfl, hcommitted, rfl⟩
  next hsome =>
    obtain ⟨dense, hwrite, hentries, hbytes, hcalibration⟩ := h.dense.resolve_left hsome
    obtain ⟨packs, remaining, hcommitted⟩ := h.committed hclean hwrite hentries hbytes
    split
    next hnone =>
      refine ⟨.journaled h, written, dense, packs, remaining, rfl, hcommitted, ?_⟩
      rw [finalizeCalibration, finalizeCalibration, hnone]
    next source hsource =>
      have hcounts : dense.counts.Sound source :=
        (writeDenseRecords_sound (DenseRecords.Sound.initial compilation) hwrite).counts source hsource
      rw [hcalibration source hsource]
      cases hrestore : source.restore (some (source.snapshot dense.counts)) with
      | error error =>
        refine ⟨.journaled h, ⟨rfl, ?_⟩⟩
        rintro ⟨plan, hplan⟩
        obtain ⟨report, hreport, -⟩ := hplan.manifest
        obtain rfl : plan.dense = dense := Except.ok.inj (hplan.dense.symm.trans hwrite)
        rw [finalizeCalibration, hsource] at hreport
        have hmapped := mapError_eq_ok hreport
        cases hfinalize : source.finalize plan.dense.counts with
        | error failure =>
          rw [hfinalize] at hmapped
          cases hmapped
        | ok snapshot =>
          rw [source.restore_snapshot hcounts hfinalize] at hrestore
          cases hrestore
      | ok counts =>
        refine ⟨.journaled h, written, dense, packs, remaining, rfl, hcommitted, ?_⟩
        rw [source.eq_of_restore hcounts hrestore]

end

end QuantumLlm.ExpertPack
