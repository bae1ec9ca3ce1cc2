import QuantumLlm.Lib.Dict
import QuantumLlm.Lib.Fallible
import QuantumLlm.Lib.PythonText

/-!
# Upgrading the dense MTP program

A compiled runtime model is upgraded by rewriting three of its records and joining all of
them again. The records are the lines of `splitlines`; where those are the lines between
newlines, every other byte stays.
-/

namespace QuantumLlm.ExpertPack

open Fallible PythonText List

/-- The fields of a line. -/
abbrev Record := List String

def denseMtpExactV1 : String := "decode.mtp.dense-full-attention.fp4-block32.exact.v1"
def denseMtpExactV2 : String := "decode.mtp.dense-full-attention.fp4-block32.exact.v2"

def oldKernel : Record := ["kernel", denseMtpExactV1, "1"]
def newKernel : Record := ["kernel", denseMtpExactV2, "2"]
def oldDecode : Record := ["exact_decode", denseMtpExactV1, "1", "2"]

def newDecode (draftDepth : Int) : Record :=
  ["exact_decode", denseMtpExactV2, "2", toString (draftDepth + 1)]

def draftLayers : Record := ["exact_decode_parameter", "draft_layers", "1"]

/-- The records in place of the draft layers. -/
def draftParameters (draftDepth draftVocabularySize : Int) : List Record :=
  [["exact_decode_parameter", "source_mtp_layers", "1"],
    ["exact_decode_parameter", "draft_depth", toString draftDepth],
    ["exact_decode_parameter", "draft_vocabulary_size", toString draftVocabularySize],
    ["exact_decode_parameter", "mtp_kv_encoding", "1"]]

def recordsOf (kind : String) (records : List Record) : List Record :=
  records.filter fun fields => fields.head? = some kind

def checkModel (draftVocabularySize : Int) (records : List Record) : Except String Unit :=
  match recordsOf "model" records with
  | [[_, schema, _, vocabulary, _, _]] =>
    match int? schema, int? vocabulary with
    | some schema, some targetVocabularySize => do
      ensure (schema = 3 ∧ 0 < targetVocabularySize)
        "dense MTP migration requires model program schema 3"
      ensure (0 < draftVocabularySize ∧ draftVocabularySize ≤ targetVocabularySize)
        "draft vocabulary size must be positive and no larger than target vocabulary"
    | _, _ => .error "runtime model program has a non-integer model record"
  | _ => .error "runtime model program has an invalid model record"

/-- A parameter record's entry in the dictionary of the parameters. -/
def parameterEntry : Record → String × String
  | [_, key, value] => (key, value)
  | _ => ("", "")

def migratableParameters : Dict String String :=
  [("draft_layers", "1"), ("embedding_first", "1"), ("post_norm", "1")]

/-- Dictionaries are equal when they have the same values under the same keys. -/
def sameDict (left right : Dict String String) : Prop :=
  left.length = right.length ∧ ∀ entry ∈ left, Dict.get? right entry.1 = some entry.2

instance (left right : Dict String String) : Decidable (sameDict left right) :=
  inferInstanceAs (Decidable (_ ∧ _))

def role (fields : Record) : String := fields.getD 1 ""

def startsWith (text start : String) : Bool := start.toList.isPrefixOf text.toList

def checkContract (records : List Record) : Except String Unit := do
  ensure (records.filter (fun fields => fields.take 2 = ["attribute", "mtp_layers"]) =
    [["attribute", "mtp_layers", "1"]]) "dense MTP v1 migration requires one source MTP layer"
  ensure (∀ fields ∈ records, denseMtpExactV2 ∉ fields)
    "container already declares the dense MTP v2 contract"
  ensure (records.count oldKernel = 1 ∧ records.count oldDecode = 1)
    "container does not declare the exact dense MTP v1 contract"
  let parameters := recordsOf "exact_decode_parameter" records
  ensure ((∀ fields ∈ parameters, fields.length = 3) ∧
      sameDict (Dict.ofPairs (parameters.map parameterEntry)) migratableParameters ∧
      parameters.length = 3)
    "dense MTP v1 parameters do not match the migratable contract"
  let tensors := recordsOf "exact_decode_tensor" records
  ensure (tensors ≠ [] ∧ (∀ fields ∈ tensors, fields.length = 3) ∧
      (tensors.any fun fields => startsWith (role fields) "layer.0.") = true ∧
      ∀ fields ∈ tensors, startsWith (role fields) "layer." = true →
        startsWith (role fields) "layer.0." = true)
    "dense MTP v1 tensor roles are not a single reusable layer"

/-- One round of the loop that rewrites. -/
def upgradeRecord (draftDepth draftVocabularySize : Int) (fields : Record) : List Record :=
  if fields = oldKernel then [newKernel]
  else if fields = oldDecode then [newDecode draftDepth]
  else if fields = draftLayers then draftParameters draftDepth draftVocabularySize
  else [fields]

def splitRecord (line : String) : Record := Lines.split '\t' line

def joinRecord (fields : Record) : String := Lines.join '\t' fields

/-- `_upgrade_dense_mtp_program_bytes` of the decoded text. -/
def upgradeText (draftDepth draftVocabularySize : Int) (text : String) : Except String String := do
  ensure (draftDepth = 3 ∨ draftDepth = 4) "dense MTP draft depth must be 3 or 4"
  let lines := splitlines text
  ensure (lines.head? = some "expert-runtime-model-v1")
    "runtime model program format is unsupported"
  let records := lines.map splitRecord
  checkModel draftVocabularySize records
  checkContract records
  pure (Lines.terminated '\n'
    ((records.flatMap (upgradeRecord draftDepth draftVocabularySize)).map joinRecord))

def upgradeDenseMtpProgramBytes (draftDepth draftVocabularySize : Int) (payload : ByteArray) :
    Except String ByteArray :=
  match String.fromUTF8? payload with
  | some text => (upgradeText draftDepth draftVocabularySize text).map String.toUTF8
  | none => do
    ensure (draftDepth = 3 ∨ draftDepth = 4) "dense MTP draft depth must be 3 or 4"
    .error "runtime model program is not UTF-8"

/-- A line with its record rewritten; any other line as it is. -/
def rewriteLine (draftDepth draftVocabularySize : Int) (line : String) : List String :=
  (upgradeRecord draftDepth draftVocabularySize (splitRecord line)).map joinRecord

/-- The text with the records between its newlines rewritten, and every other byte as it is. -/
def rewritten (draftDepth draftVocabularySize : Int) (text : String) : String :=
  Lines.join '\n'
    ((Lines.split '\n' text).flatMap (rewriteLine draftDepth draftVocabularySize))

variable {draftDepth draftVocabularySize : Int} {text result line : String}

theorem joinRecord_splitRecord : joinRecord (splitRecord line) = line := Lines.join_split line

/-- The three records that are rewritten. -/
def Rewrites (line : String) : Prop :=
  line = joinRecord oldKernel ∨ line = joinRecord oldDecode ∨ line = joinRecord draftLayers

theorem rewriteLine_of_other (h : ¬ Rewrites line) :
    rewriteLine draftDepth draftVocabularySize line = [line] := by
  have hrecord : ∀ fields, splitRecord line = fields → line = joinRecord fields := by
    intro fields hfields
    rw [← hfields, joinRecord_splitRecord]
  unfold rewriteLine upgradeRecord
  rw [if_neg fun hkernel => h (.inl (hrecord _ hkernel)),
    if_neg fun hdecode => h (.inr (.inl (hrecord _ hdecode))),
    if_neg fun hlayers => h (.inr (.inr (hrecord _ hlayers)))]
  rw [map_singleton, joinRecord_splitRecord]

theorem upgradeText_ok (h : upgradeText draftDepth draftVocabularySize text = .ok result) :
    (draftDepth = 3 ∨ draftDepth = 4) ∧
    (splitlines text).head? = some "expert-runtime-model-v1" ∧
    checkModel draftVocabularySize ((splitlines text).map splitRecord) = .ok () ∧
    checkContract ((splitlines text).map splitRecord) = .ok () ∧
    result = Lines.terminated '\n'
      ((splitlines text).flatMap (rewriteLine draftDepth draftVocabularySize)) := by
  obtain ⟨_, hdepth, h⟩ := bind_ok.1 h
  obtain ⟨_, hhead, h⟩ := bind_ok.1 h
  obtain ⟨_, hmodel, h⟩ := bind_ok.1 h
  obtain ⟨_, hcontract, h⟩ := bind_ok.1 h
  refine ⟨ensure_ok.1 hdepth, ensure_ok.1 hhead, hmodel, hcontract, ?_⟩
  rw [← pure_ok.1 h, flatMap_map, map_flatMap]
  rfl

variable {records : List Record} {fields : Record}

theorem upgradeText_of_records (hrecords : (splitlines text).map splitRecord = records)
    (hdepth : draftDepth = 3 ∨ draftDepth = 4)
    (hhead : (splitlines text).head? = some "expert-runtime-model-v1")
    (hmodel : checkModel draftVocabularySize records = .ok ())
    (hcontract : checkContract records = .ok ()) :
    upgradeText draftDepth draftVocabularySize text = .ok (Lines.terminated '\n'
      ((records.flatMap (upgradeRecord draftDepth draftVocabularySize)).map joinRecord)) := by
  subst hrecords
  exact bind_ok.2 ⟨(), ensure_ok.2 hdepth, bind_ok.2 ⟨(), ensure_ok.2 hhead,
    bind_ok.2 ⟨(), hmodel, bind_ok.2 ⟨(), hcontract, rfl⟩⟩⟩⟩

theorem boundary_not_mem_of_all {text : String}
    (h : (text.toList.all fun c => c ∉ boundaries) = true) :
    ∀ c ∈ text.toList, c ∉ boundaries :=
  fun c hc => of_decide_eq_true (all_eq_true.1 h c hc)

theorem boundary_not_mem_of_rewrites (h : Rewrites line) :
    ∀ c ∈ line.toList, c ∉ boundaries := by
  apply boundary_not_mem_of_all
  rcases h with rfl | rfl | rfl
  · decide +kernel
  · decide +kernel
  · decide +kernel

theorem digit_not_boundary {c : Char} (h : c.isDigit) : c ∉ boundaries := by
  have hrange : 48 ≤ c.toNat ∧ c.toNat ≤ 57 := Char.isDigit_iff_toNat.1 h
  intro hmem
  have hall : (boundaries.all fun other => ¬ (48 ≤ other.toNat ∧ other.toNat ≤ 57)) = true := by
    decide
  exact of_decide_eq_true (all_eq_true.1 hall c hmem) hrange

theorem boundary_not_mem_toString {value : Int} (h : 0 ≤ value) :
    ∀ c ∈ (toString value).toList, c ∉ boundaries := by
  intro c hc
  obtain ⟨natural, rfl⟩ := Int.eq_ofNat_of_zero_le h
  exact digit_not_boundary (Lines.isDigit_of_mem_toString hc)

/-- No field holds a character that ends a line. -/
def Plain (fields : Record) : Prop := ∀ field ∈ fields, ∀ c ∈ field.toList, c ∉ boundaries

theorem plain_cons {field : String} :
    Plain (field :: fields) ↔ (∀ c ∈ field.toList, c ∉ boundaries) ∧ Plain fields :=
  forall_mem_cons

theorem plain_nil : Plain [] := nofun

theorem plain_of_all (h : (fields.all fun field => field.toList.all fun c => c ∉ boundaries) = true) :
    Plain fields :=
  fun field hfield => boundary_not_mem_of_all (all_eq_true.1 h field hfield)

theorem upgradeRecord_plain (hdepth : 0 ≤ draftDepth) (hvocabulary : 0 ≤ draftVocabularySize)
    (h : Plain fields) :
    ∀ other ∈ upgradeRecord draftDepth draftVocabularySize fields, Plain other := by
  have hnext : ∀ c ∈ (toString (draftDepth + 1)).toList, c ∉ boundaries :=
    boundary_not_mem_toString (by omega)
  have hdraft := boundary_not_mem_toString hdepth
  have hsize := boundary_not_mem_toString hvocabulary
  unfold upgradeRecord
  split
  · intro other hother
    obtain rfl := mem_singleton.1 hother
    exact plain_of_all (by decide +kernel)
  · split
    · intro other hother
      obtain rfl := mem_singleton.1 hother
      unfold newDecode
      simp only [plain_cons]
      exact ⟨boundary_not_mem_of_all (by decide +kernel), boundary_not_mem_of_all (by decide +kernel),
        boundary_not_mem_of_all (by decide +kernel), hnext, plain_nil⟩
    · split
      · intro other hother
        unfold draftParameters at hother
        simp only [mem_cons, not_mem_nil, or_false] at hother
        rcases hother with rfl | rfl | rfl | rfl
        · exact plain_of_all (by decide +kernel)
        · simp only [plain_cons]
          exact ⟨boundary_not_mem_of_all (by decide +kernel),
            boundary_not_mem_of_all (by decide +kernel), hdraft, plain_nil⟩
        · simp only [plain_cons]
          exact ⟨boundary_not_mem_of_all (by decide +kernel),
            boundary_not_mem_of_all (by decide +kernel), hsize, plain_nil⟩
        · exact plain_of_all (by decide +kernel)
      · intro other hother
        rw [mem_singleton.1 hother]
        exact h

theorem rewriteLine_plain (hdepth : 0 ≤ draftDepth) (hvocabulary : 0 ≤ draftVocabularySize)
    (h : ∀ c ∈ line.toList, c ∉ boundaries) :
    ∀ other ∈ rewriteLine draftDepth draftVocabularySize line, ∀ c ∈ other.toList,
      c ∉ boundaries := by
  intro other hother c hc
  obtain ⟨fields, hfields, rfl⟩ := mem_map.1 hother
  have hplain : Plain (splitRecord line) := by
    intro field hfield d hd
    have hmem := @Lines.mem_join_of_mem '\t' _ _ _ hfield hd
    rw [show Lines.join '\t' (splitRecord line) = line from joinRecord_splitRecord] at hmem
    exact h d hmem
  rcases Lines.mem_join hc with rfl | ⟨field, hfield, hmem⟩
  · decide
  · exact upgradeRecord_plain hdepth hvocabulary hplain fields hfields field hfield c hmem

theorem rewriteLine_last (hsome : line ≠ "") : ∃ front last,
    rewriteLine draftDepth draftVocabularySize line = front ++ [last] ∧ last ≠ "" := by
  unfold rewriteLine upgradeRecord
  split
  · exact ⟨[], joinRecord newKernel, rfl, by decide +kernel⟩
  · split
    · exact ⟨[], joinRecord (newDecode draftDepth), rfl, Lines.join_ne_empty (by decide)⟩
    · split
      · exact ⟨((draftParameters draftDepth draftVocabularySize).take 3).map joinRecord,
          joinRecord ["exact_decode_parameter", "mtp_kv_encoding", "1"], rfl, by decide +kernel⟩
      · refine ⟨[], line, ?_, hsome⟩
        rw [map_singleton, joinRecord_splitRecord]
        rfl

theorem checkModel_ok (h : checkModel draftVocabularySize records = .ok ()) :
    ∃ kind schema architecture vocabulary context hidden target,
      recordsOf "model" records = [[kind, schema, architecture, vocabulary, context, hidden]] ∧
      int? vocabulary = some target ∧ 0 < draftVocabularySize ∧ draftVocabularySize ≤ target := by
  unfold checkModel at h
  split at h
  next kind schema architecture vocabulary context hidden hrecords =>
    split at h
    next version target _ htarget =>
      obtain ⟨_, -, h⟩ := bind_ok.1 h
      obtain ⟨hsize, hbound⟩ := ensure_ok.1 h
      exact ⟨kind, schema, architecture, vocabulary, context, hidden, target, hrecords, htarget,
        hsize, hbound⟩
    next => cases h
  next => cases h

theorem checkContract_ok (h : checkContract records = .ok ()) :
    (∀ fields ∈ records, denseMtpExactV2 ∉ fields) ∧
    (∀ key value, ["exact_decode_parameter", key, value] ∈ records →
      key ∈ Dict.keys migratableParameters) ∧
    records.count oldKernel = 1 ∧ records.count oldDecode = 1 := by
  obtain ⟨_, _, h⟩ := bind_ok.1 h
  obtain ⟨_, hfresh, h⟩ := bind_ok.1 h
  obtain ⟨_, hcounts, h⟩ := bind_ok.1 h
  obtain ⟨_, hparameters, h⟩ := bind_ok.1 h
  obtain ⟨-, ⟨-, hsame⟩, -⟩ := ensure_ok.1 hparameters
  refine ⟨ensure_ok.1 hfresh, fun key value hmem => ?_, ensure_ok.1 hcounts⟩
  have hrecord : ["exact_decode_parameter", key, value] ∈
      recordsOf "exact_decode_parameter" records :=
    mem_filter.2 ⟨hmem, by simp⟩
  have hkey : key ∈ Dict.keys (Dict.ofPairs
      ((recordsOf "exact_decode_parameter" records).map parameterEntry)) :=
    Dict.mem_keys_ofPairs.2 (mem_map.2 ⟨(key, value), mem_map.2 ⟨_, hrecord, rfl⟩, rfl⟩)
  obtain ⟨entry, hentry, rfl⟩ := mem_map.1 hkey
  exact mem_map.2 ⟨_, Dict.mem_of_get? (hsame entry hentry), rfl⟩

theorem flatMap_ne_nil (hhead : (splitlines text).head? = some "expert-runtime-model-v1") :
    (splitlines text).flatMap (rewriteLine draftDepth draftVocabularySize) ≠ [] := by
  cases hlines : splitlines text with
  | nil =>
    rw [hlines] at hhead
    cases hhead
  | cons first rest =>
    rw [hlines] at hhead
    cases hhead
    obtain ⟨front, last, hfirst, -⟩ := @rewriteLine_last draftDepth draftVocabularySize
      "expert-runtime-model-v1" (by decide)
    rw [flatMap_cons, hfirst]
    simp

section

variable (h : upgradeText draftDepth draftVocabularySize text = .ok result)

include h

theorem numbers_nonneg :
    0 ≤ draftDepth ∧ 0 ≤ draftVocabularySize := by
  obtain ⟨hdepth, -, hmodel, -, -⟩ := upgradeText_ok h
  obtain ⟨_, _, _, _, _, _, _, -, -, hsize, -⟩ := checkModel_ok hmodel
  omega

theorem lines_plain :
    ∀ line ∈ (splitlines text).flatMap (rewriteLine draftDepth draftVocabularySize),
      ∀ c ∈ line.toList, c ∉ boundaries := by
  obtain ⟨hdepth, hsize⟩ := numbers_nonneg h
  intro other hother c hc
  obtain ⟨line, hline, hrewritten⟩ := mem_flatMap.1 hother
  exact rewriteLine_plain hdepth hsize (splitlines_not_boundary hline) other hrewritten c hc

theorem result_plain :
    ∀ c ∈ result.toList, c ∈ boundaries → c = '\n' := by
  obtain ⟨-, -, -, -, hresult⟩ := upgradeText_ok h
  intro c hc hboundary
  rw [hresult, Lines.terminated, String.toList_append, String.toList_singleton, mem_append,
    mem_singleton] at hc
  rcases hc with hjoined | hend
  · rcases Lines.mem_join hjoined with hnewline | ⟨other, hother, hmem⟩
    · exact hnewline
    · exact absurd hboundary (lines_plain h other hother c hmem)
  · exact hend

/-- Every other byte stays exactly where the lines of the text end with newlines and nothing else. -/
theorem eq_rewritten_iff :
    result = rewritten draftDepth draftVocabularySize text ↔ OnlyNewlines text := by
  obtain ⟨-, hhead, -, -, hresult⟩ := upgradeText_ok h
  obtain ⟨hdepth, hsize⟩ := numbers_nonneg h
  have hplain := result_plain h
  constructor
  · intro hsame
    have htext := @Lines.join_split '\n' text
    refine ⟨fun c hc hboundary => ?_, ?_⟩
    · rw [← htext] at hc
      rcases Lines.mem_join hc with hnewline | ⟨line, hline, hmem⟩
      · exact hnewline
      · have hother : ¬ Rewrites line := fun hrewrites =>
          boundary_not_mem_of_rewrites hrewrites c hmem hboundary
        refine hplain c ?_ hboundary
        rw [hsame]
        refine Lines.mem_join_of_mem (mem_flatMap.2 ⟨line, hline, ?_⟩) hmem
        rw [rewriteLine_of_other hother]
        exact mem_singleton_self line
    · have hends : result.toList.getLast? = some '\n' := by
        rw [hresult]
        exact Lines.getLast?_terminated
      rcases eq_nil_or_concat (Lines.split '\n' text) with hnil | ⟨front, line, hlines⟩
      · exact absurd hnil (Lines.split_ne_nil text)
      rw [concat_eq_append] at hlines
      by_cases hempty : line = ""
      · rw [hlines, hempty] at htext
        cases front with
        | nil =>
          rw [← htext] at hhead
          exact absurd hhead (by decide)
        | cons first rest =>
          rw [Lines.join_append_empty (cons_ne_nil first rest)] at htext
          rw [← htext]
          exact Lines.getLast?_terminated
      · obtain ⟨before, last, hlast, hsome⟩ :=
          @rewriteLine_last draftDepth draftVocabularySize line hempty
        have hline : '\n' ∉ line.toList := by
          refine @Lines.not_mem_split _ text _ ?_
          rw [hlines]
          exact mem_append_right _ (mem_singleton_self line)
        have hmem : last ∈ rewriteLine draftDepth draftVocabularySize line := by
          rw [hlast]
          exact mem_append_right _ (mem_singleton_self last)
        have hclean : '\n' ∉ last.toList := by
          intro hnewline
          by_cases hrewrites : Rewrites line
          · exact rewriteLine_plain hdepth hsize (boundary_not_mem_of_rewrites hrewrites) last hmem
              '\n' hnewline (by decide)
          · rw [rewriteLine_of_other hrewrites, mem_singleton] at hmem
            exact hline (hmem ▸ hnewline)
        obtain ⟨others, hothers⟩ := @Lines.join_concat '\n'
          (front.flatMap (rewriteLine draftDepth draftVocabularySize) ++ before) last
        rw [hsame, rewritten, hlines, flatMap_append, flatMap_singleton, hlast,
          ← append_assoc, hothers] at hends
        cases hchars : last.toList with
        | nil => exact absurd (String.toList_inj.1 hchars) hsome
        | cons c rest =>
          rw [getLast?_append_of_ne_nil _ (by rw [hchars]; exact cons_ne_nil c rest)]
            at hends
          exact absurd (mem_of_getLast? hends) hclean
  · intro honly
    have hempty : rewriteLine draftDepth draftVocabularySize "" = [""] :=
      rewriteLine_of_other (by unfold Rewrites; decide +kernel)
    unfold rewritten
    rw [honly.split, flatMap_append, flatMap_singleton, hempty,
      Lines.join_append_empty (flatMap_ne_nil hhead), hresult]

theorem splitlines_result :
    splitlines result =
        (splitlines text).flatMap (rewriteLine draftDepth draftVocabularySize) ∧
      OnlyNewlines result := by
  obtain ⟨-, hhead, -, -, hresult⟩ := upgradeText_ok h
  have hplain := result_plain h
  have honly : OnlyNewlines result := by
    refine ⟨hplain, ?_⟩
    rw [hresult]
    exact Lines.getLast?_terminated
  refine ⟨?_, honly⟩
  have hsplit := honly.split
  rw [hresult, Lines.split_terminated (fun line hline hmem => ?_) (flatMap_ne_nil hhead), ← hresult]
    at hsplit
  · exact (append_cancel_right hsplit).symm
  · exact lines_plain h line hline '\n' hmem (by decide)

theorem upgradeText_again (nextDepth nextVocabularySize : Int) :
    ∃ what, upgradeText nextDepth nextVocabularySize result = .error what := by
  cases hagain : upgradeText nextDepth nextVocabularySize result with
  | error what => exact ⟨what, rfl⟩
  | ok final =>
    obtain ⟨-, -, -, hcontract, -⟩ := upgradeText_ok h
    obtain ⟨-, -, -, hnext, -⟩ := upgradeText_ok hagain
    obtain ⟨hfresh, -⟩ := checkContract_ok hnext
    obtain ⟨-, -, hkernel, -⟩ := checkContract_ok hcontract
    have hmem : oldKernel ∈ (splitlines text).map splitRecord :=
      count_pos_iff.1 (by omega)
    obtain ⟨line, hline, hsplit⟩ := mem_map.1 hmem
    have hnew : joinRecord newKernel ∈ splitlines result := by
      rw [(splitlines_result h).1]
      refine mem_flatMap.2 ⟨line, hline, ?_⟩
      unfold rewriteLine upgradeRecord
      rw [if_pos hsplit]
      exact mem_singleton_self _
    have hsplit : splitRecord (joinRecord newKernel) = newKernel := by decide +kernel
    refine absurd ?_ (hfresh newKernel (mem_map.2 ⟨_, hnew, hsplit⟩))
    exact mem_cons_of_mem _ mem_cons_self

end

end QuantumLlm.ExpertPack
