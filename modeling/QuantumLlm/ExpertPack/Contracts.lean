import QuantumLlm.ExpertPack.Interrupted

/-!
# Changed contracts

A partial conversion that was left under one contract, and a run under another.
The journal names its contract and is checked; a partial conversion that has its
manifest and its marker is published without a look at the contract.
-/

namespace QuantumLlm.ExpertPack

variable {Tensor Expert Tensor' Expert' Fields Rest : Type}
  {compilation : Compilation Tensor Expert Fields Rest}
  {other : Compilation Tensor' Expert' Fields Rest} {disk : Disk Fields Rest}
  {written : Directory Fields Rest} {plan : Plan Fields Rest}

open Compilation

/-- What any number of runs leave, each crashed at any write, failed or done. -/
def LeftBehind (compilation : Compilation Tensor Expert Fields Rest) : Disk Fields Rest → Prop :=
  (compilation.compile true).Crashes fun disk => disk = {}

/-- Before the first journal. -/
structure Unjournaled (disk : Disk Fields Rest) : Prop where
  output : disk.output = none
  journal : ∀ written, disk.unfinished = some written → written.get (.final .state) = none
  incomplete : ∀ written, disk.unfinished = some written → written.get (.final .completed) = none

theorem unjournaled_put {content : Content Fields Rest}
    (h : Unjournaled ⟨some written, none⟩) :
    Unjournaled ⟨some (written.put ⟨.state, true⟩ content), none⟩ := by
  refine ⟨rfl, ?_, ?_⟩
  · rintro - ⟨⟩
    rw [Files.get_put, if_neg (by simp [Path.final])]
    exact h.journal written rfl
  · rintro - ⟨⟩
    rw [Files.get_put, if_neg (by simp [Path.final])]
    exact h.incomplete written rfl

theorem unjournaled_empty : Unjournaled (⟨some [], none⟩ : Disk Fields Rest) :=
  ⟨rfl, by rintro - ⟨⟩; rfl, by rintro - ⟨⟩; rfl⟩

/-- What a disk looks like on which only one contract was at work. -/
def Owned (compilation : Compilation Tensor Expert Fields Rest) (disk : Disk Fields Rest) : Prop :=
  Unjournaled disk ∨ Recoverable compilation disk

theorem safe_compile_start (resuming : Bool) :
    Durable.Safe (Owned compilation) (Fruitless compilation)
      (fun _ disk => Published compilation disk) (compilation.compile resuming) {} := by
  have hempty : Unjournaled (⟨some [], none⟩ : Disk Fields Rest) := unjournaled_empty
  have htorn := @unjournaled_put _ _ _ .torn hempty
  have hstate := @unjournaled_put _ _ _ (.state compilation.newState) htorn
  have hrest := (safe_afterJournal compilation).weaken fun disk =>
    (Or.inr : Recoverable compilation disk → Owned compilation disk)
  exact ⟨.inl ⟨rfl, by rintro - ⟨⟩, by rintro - ⟨⟩⟩, .inl hempty, .inl htorn, .inl hstate, hrest⟩

theorem refuses_output (resuming : Bool) (h : disk.output.isSome) :
    (compilation.compile resuming).Refuses disk := by
  simp [Durable.Refuses, compile, Durable.run, Durable.crashed, h]

theorem refuses_partial : (compilation.compile false).Refuses ⟨some written, none⟩ := by
  simp [Durable.Refuses, compile, Durable.run, Durable.crashed]

theorem refuses_unjournaled (h : Unjournaled ⟨some written, none⟩) :
    (compilation.compile true).Refuses ⟨some written, none⟩ := by
  simp [Durable.Refuses, compile, Durable.run, Durable.crashed, h.journal written rfl,
    h.incomplete written rfl]

theorem refuses_journaled {state : State Fields} (h : Resumable compilation written state)
    (hcontract : other.contractSha256 ≠ compilation.contractSha256) :
    (other.compile true).Refuses ⟨some written, none⟩ := by
  have hchanged : state.contractSha256 ≠ other.contractSha256 := by
    rw [h.contract]
    exact hcontract.symm
  simp [Durable.Refuses, compile, Durable.run, Durable.crashed, h.journal, h.incomplete, hchanged]

theorem LeftBehind.owned (h : LeftBehind compilation disk) : Owned compilation disk := by
  refine h.invariant ?_ ?_
  · rintro - rfl
    exact .inl ⟨rfl, by rintro - ⟨⟩, by rintro - ⟨⟩⟩
  · intro disk disk' hdisk hmem
    have hkeep : (compilation.compile true).Refuses disk →
        Owned compilation disk' := by
      rintro ⟨-, hcrashed⟩
      rw [hcrashed, List.mem_singleton] at hmem
      rwa [hmem]
    cases houtput : disk.output with
    | some written => exact hkeep (refuses_output true (by rw [houtput]; rfl))
    | none =>
      rcases hdisk with hunjournaled | hrecoverable
      · obtain ⟨unfinished, output⟩ := disk
        obtain rfl : output = none := houtput
        cases unfinished with
        | none => exact (safe_compile_start true).of_mem_crashed hmem
        | some written => exact hkeep (refuses_unjournaled hunjournaled)
      · exact .inr ((safe_compile hrecoverable houtput).of_mem_crashed hmem)

/-- Nothing gets the name of the output, at any write, but what this compilation publishes. -/
structure KeepsContract (compilation : Compilation Tensor Expert Fields Rest) (resuming : Bool)
    (disk : Disk Fields Rest) : Prop where
  done : ((compilation.compile resuming).run disk).1 = .ok () →
    Published compilation ((compilation.compile resuming).run disk).2
  crashed : ∀ disk' ∈ (compilation.compile resuming).crashed disk,
    disk'.output = disk.output ∨ Published compilation disk'

/-- A partial conversion with manifest, marker and report that passes the validation. -/
def FinishedPartial (compilation : Compilation Tensor Expert Fields Rest)
    (disk : Disk Fields Rest) : Prop :=
  ∃ written : Directory Fields Rest, disk = ⟨some written, none⟩ ∧
    (written.get (.final .manifest)).isSome ∧ (written.get (.final .completed)).isSome ∧
    compilation.validateContainer written = true ∧ (written.get (.final .report)).isSome

theorem KeepsContract.of_refuses {resuming : Bool}
    (h : (compilation.compile resuming).Refuses disk) : KeepsContract compilation resuming disk := by
  obtain ⟨⟨error, hrun⟩, hcrashed⟩ := h
  constructor
  · intro hok
    rw [hrun] at hok
    cases hok
  · intro disk' hmem
    rw [hcrashed, List.mem_singleton] at hmem
    exact .inl (by rw [hmem])

theorem Owned.published (h : Owned compilation disk) :
    disk.output = none ∨ Published compilation disk := by
  rcases h with hunjournaled | hrecoverable
  · exact .inl hunjournaled.output
  · cases hrecoverable with
    | journaled => exact .inl rfl
    | complete => exact .inl rfl
    | published hplan hstored hstate => exact .inr ⟨_, _, hplan, hstored, hstate, rfl⟩

theorem keepsContract_start (resuming : Bool) : KeepsContract compilation resuming {} := by
  have hsafe := @safe_compile_start _ _ _ _ compilation resuming
  constructor
  · intro hok
    have hpost := hsafe.of_run.2
    rw [hok] at hpost
    exact hpost
  · intro disk' hmem
    exact (hsafe.of_mem_crashed hmem).published

theorem Owned.complete (h : Owned compilation ⟨some written, none⟩)
    (hcompleted : (written.get (.final .completed)).isSome) : Complete compilation written := by
  rcases h with hunjournaled | hrecoverable
  · rw [hunjournaled.incomplete written rfl] at hcompleted
    cases hcompleted
  · cases hrecoverable with
    | journaled hjournal =>
      rw [hjournal.incomplete] at hcompleted
      cases hcompleted
    | complete hcomplete => exact hcomplete

/-- What a run does with a directory that has manifest and marker. -/
def publishing (compilation : Compilation Tensor Expert Fields Rest)
    (written : Directory Fields Rest) : Program Fields Rest Unit :=
  if compilation.validateContainer written then
    if (written.get (.final .report)).isSome then
      if (written.get (.final .state)).isSome then do
        unlink (.final .state)
        fsyncDirectory
        publish
        fsyncDirectory
      else do
        publish
        fsyncDirectory
    else .throw .reportMissing
  else .throw .validation

theorem compile_marked (hmanifest : (written.get (.final .manifest)).isSome)
    (hcompleted : (written.get (.final .completed)).isSome) :
    (compilation.compile true).run ⟨some written, none⟩ =
        (publishing compilation written).run ⟨some written, none⟩ ∧
      (compilation.compile true).crashed ⟨some written, none⟩ =
        (publishing compilation written).crashed ⟨some written, none⟩ := by
  simp only [compile, Durable.run, Durable.crashed, Option.isSome_none, Bool.false_eq_true,
    if_false, not_true_eq_false, if_pos (And.intro hmanifest hcompleted)]
  exact ⟨rfl, rfl⟩

section

variable (hmanifest : (written.get (.final .manifest)).isSome)
  (hcompleted : (written.get (.final .completed)).isSome)

include hmanifest hcompleted

theorem refuses_invalid (hfinished : ¬ FinishedPartial compilation ⟨some written, none⟩) :
    (compilation.compile true).Refuses ⟨some written, none⟩ := by
  obtain ⟨hrun, hcrashed⟩ := @compile_marked _ _ _ _ compilation _ hmanifest hcompleted
  rw [Durable.Refuses, hrun, hcrashed, publishing]
  by_cases hvalid : compilation.validateContainer written = true
  · have hreport : ¬ (written.get (.final .report)).isSome := fun hreport =>
      hfinished ⟨written, rfl, hmanifest, hcompleted, hvalid, hreport⟩
    rw [if_pos hvalid, if_neg hreport]
    exact ⟨⟨.reportMissing, rfl⟩, rfl⟩
  · rw [if_neg hvalid]
    exact ⟨⟨.validation, rfl⟩, rfl⟩

theorem publishes_finished (hvalid : compilation.validateContainer written = true)
    (hreport : (written.get (.final .report)).isSome) :
    ∃ published : Directory Fields Rest,
      (compilation.compile true).run ⟨some written, none⟩ = (.ok (), ⟨none, some published⟩) ∧
      ∀ path, path ≠ .final .state → published.get path = written.get path := by
  obtain ⟨hrun, -⟩ := @compile_marked _ _ _ _ compilation _ hmanifest hcompleted
  rw [hrun, publishing, if_pos hvalid, if_pos hreport]
  by_cases hstate : (written.get (.final .state)).isSome
  · rw [if_pos hstate]
    refine ⟨written.erase (.final .state), rfl, ?_⟩
    intro path hpath
    rw [Files.get_erase, if_neg hpath]
  · rw [if_neg hstate]
    exact ⟨written, rfl, fun _ _ => rfl⟩

end

/-- A run under another contract publishes only its own container exactly when it does not find a
finished partial conversion: that one it publishes as it is. -/
theorem resumed_compile_keeps_contract_iff (hleft : LeftBehind compilation disk)
    (hcontract : other.contractSha256 ≠ compilation.contractSha256)
    (hbytes : ∀ plan plan' : Plan Fields Rest, Prepared compilation plan → Planned other plan' →
      ∃ path, plan.content path ≠ plan'.content path) :
    (∀ resuming, KeepsContract other resuming disk) ↔ ¬ FinishedPartial other disk := by
  constructor
  · rintro hkeeps ⟨written, rfl, hmanifest, hcompleted, hvalid, hreport⟩
    obtain ⟨published, hrun, hsame⟩ := publishes_finished hmanifest hcompleted hvalid hreport
    have hpublished := (hkeeps true).done (by rw [hrun])
    rw [hrun] at hpublished
    obtain ⟨plan, hprepared, hstored⟩ := hleft.owned.complete hcompleted
    obtain ⟨plan', written', hplanned, hstored', -, hdisk⟩ := hpublished
    cases hdisk
    obtain ⟨path, hpath⟩ := hbytes plan plan' hprepared hplanned
    by_cases hstate : path = .final .state
    · rw [hstate] at hpath
      exact hpath rfl
    · exact hpath (by rw [← hstored path hstate, ← hstored' path hstate, hsame path hstate])
  · intro hfinished resuming
    obtain ⟨unfinished, output⟩ := disk
    cases output with
    | some published => exact .of_refuses (refuses_output resuming rfl)
    | none =>
      cases unfinished with
      | none => exact keepsContract_start resuming
      | some written =>
        cases resuming with
        | false => exact .of_refuses refuses_partial
        | true =>
          refine .of_refuses ?_
          rcases hleft.owned with hunjournaled | hrecoverable
          · exact refuses_unjournaled hunjournaled
          · cases hrecoverable with
            | journaled hjournal => exact refuses_journaled hjournal hcontract
            | complete hcomplete =>
              obtain ⟨plan, -, hstored⟩ := hcomplete
              have hfile : ∀ file, file ≠ .state →
                  written.get (.final file) = plan.content (.final file) :=
                fun file hfile => hstored.get_eq hfile
              exact refuses_invalid (by rw [hfile _ (by simp)]; rfl)
                (by rw [hfile _ (by simp)]; rfl) hfinished

/-- The checkpoint of `smallCompilation` with other experts' bytes. -/
def otherCompilation : Compilation Unit Nat Unit Unit :=
  { smallCompilation with
    contractSha256 := 4
    expertRecord := fun _ _ expert => .ok ([7, expert.toUInt8], ()) }

/-- The first pack of what was published. -/
def publishedPack (disk : Disk Unit Unit) : Option (List UInt8) :=
  disk.output.bind fun written => payload written (.experts 0)

theorem planned_pack {compilation : Compilation Unit Nat Unit Unit} {plan : Plan Unit Unit}
    (h : Prepared compilation plan) {bytes : List UInt8}
    (hpacks : (compilation.expertPacks compilation.experts.length 0 compilation.experts).map
      (fun packs => packs[0]?.map fun pack => pack.bytes) = .ok (some bytes)) :
    plan.payload (some 0) = some bytes := by
  rw [h.packs] at hpacks
  exact Except.ok.inj hpacks

theorem small_packs_differ {plan plan' : Plan Unit Unit} (h : Prepared smallCompilation plan)
    (h' : Prepared otherCompilation plan') : ∃ path, plan.content path ≠ plan'.content path := by
  refine ⟨.final (.experts 0), ?_⟩
  have hpack := @planned_pack _ _ h [3, 0, 3, 1] (by decide +kernel)
  have hpack' := @planned_pack _ _ h' [7, 0, 7, 1] (by decide +kernel)
  simp [Plan.content, Path.final, hpack, hpack']

/-- A crash just before the last rename, then another codec: the old records are published. -/
theorem finished_partial_mixes_contracts : ∃ disk : Disk Unit Unit,
    LeftBehind smallCompilation disk ∧
      otherCompilation.contractSha256 ≠ smallCompilation.contractSha256 ∧
      ((otherCompilation.compile true).run disk).1 = .ok () ∧
      publishedPack ((otherCompilation.compile true).run disk).2 = some [3, 0, 3, 1] ∧
      publishedPack ((otherCompilation.compile true).run {}).2 = some [7, 0, 7, 1] ∧
      ¬ KeepsContract otherCompilation true disk := by
  have hfound : ((smallCompilation.compile true).crashed {}).any fun disk =>
      decide (((otherCompilation.compile true).run disk).1 = .ok ()) &&
        decide (publishedPack ((otherCompilation.compile true).run disk).2 =
          some [3, 0, 3, 1]) := by
    decide +kernel
  obtain ⟨disk, hmem, hfound⟩ := List.any_eq_true.1 hfound
  obtain ⟨hok, hpack⟩ := Bool.and_eq_true_iff.1 hfound
  have hok := of_decide_eq_true hok
  have hpack := of_decide_eq_true hpack
  refine ⟨disk, .again (.start rfl) hmem, by decide, hok, hpack, by decide +kernel, ?_⟩
  intro hkeeps
  obtain ⟨plan, written, hplanned, hstored, -, hdisk⟩ := hkeeps.done hok
  have hpayload := hstored.payload_eq (some 0)
  rw [@planned_pack _ _ hplanned.toPrepared [7, 0, 7, 1] (by decide +kernel)] at hpayload
  rw [hdisk, publishedPack] at hpack
  rw [packFile] at hpayload
  simp [hpayload] at hpack

/-- A journal that a first run left, and a run under another contract: it is refused. -/
theorem journal_refuses_contract : ∃ disk : Disk Unit Unit,
    LeftBehind smallCompilation disk ∧ hasJournal disk = true ∧
      ∀ resuming, KeepsContract otherCompilation resuming disk := by
  have hfound : ((smallCompilation.compile true).crashed {}).any fun disk =>
      hasJournal disk && disk.unfinished.all fun written =>
        (written.get (.final .completed)).isNone := by
    decide +kernel
  obtain ⟨disk, hmem, hfound⟩ := List.any_eq_true.1 hfound
  obtain ⟨hjournal, hincomplete⟩ := Bool.and_eq_true_iff.1 hfound
  have hleft : LeftBehind smallCompilation disk := .again (.start rfl) hmem
  refine ⟨disk, hleft, hjournal, (resumed_compile_keeps_contract_iff hleft (by decide)
    fun plan plan' h h' => small_packs_differ h h'.toPrepared).2 ?_⟩
  rintro ⟨written, rfl, -, hcompleted, -⟩
  simp only [Option.all_some, Option.isNone_iff_eq_none] at hincomplete
  rw [hincomplete] at hcompleted
  cases hcompleted

end QuantumLlm.ExpertPack
