import QuantumLlm.Lib.Fallible
import QuantumLlm.Lib.Utf8
import QuantumLlm.Server.Text.StopFilter

/-!
# Streaming detokenization

The decoder of a token stream keeps a window of the last tokens. When the window is full it
is cut down to a few tokens, and the text that was emitted is found again as the longest
common end of it and of what those tokens decode to.
-/

namespace QuantumLlm.Server

open Fallible Utf8 List

/-- A byte-level tokenizer: the bytes of its tokens, and which of them are special. -/
structure Tokenizer where
  bytes : Nat → Bytes
  special : Nat → Bool

def Tokenizer.decode (tokenizer : Tokenizer) (tokens : List Nat) (skipSpecialTokens : Bool) :
    Text :=
  Utf8.decode ((if skipSpecialTokens then tokens.filter fun token => !tokenizer.special token
    else tokens).flatMap tokenizer.bytes)

/-- What `IncrementalTokenDecoder` is constructed with; the bounds are those it checks. -/
structure DecoderOptions where
  tokenizer : Tokenizer
  overlapTokens : Nat := 64
  maximumWindowTokens : Nat := 256
  preserveSpecialTokens : Bool := false
  suppressedTokenIds : List Nat := []
  overlap : 1 ≤ overlapTokens := by decide
  window : overlapTokens < maximumWindowTokens := by decide

structure IncrementalTokenDecoder where
  tokens : List Nat := []
  emitted : Text := []
  decodePrefix : Text := []
  deriving DecidableEq

namespace IncrementalTokenDecoder

variable (options : DecoderOptions)

/-- `_decode_raw` -/
def decodeRaw (tokens : List Nat) : Text :=
  options.tokenizer.decode
    (if options.suppressedTokenIds ≠ [] then
      tokens.filter fun token => decide (token ∉ options.suppressedTokenIds) else tokens)
    !options.preserveSpecialTokens

/-- `_decode` -/
def decode (decoder : IncrementalTokenDecoder) (tokens : List Nat) : Except String Text := do
  let current := decodeRaw options tokens
  ensure (decoder.decodePrefix <+: current) "tokenizer changed the retained streaming context"
  pure (current.drop decoder.decodePrefix.length)

/-- How many symbols two texts have in common from their beginnings on. -/
def common : Text → Text → Nat
  | first :: firsts, second :: seconds => if first = second then common firsts seconds + 1 else 0
  | _, _ => 0

/-- `_compact`: whether the window has a boundary, and the decoder behind it. -/
def compact (decoder : IncrementalTokenDecoder) : Bool × IncrementalTokenDecoder :=
  if decoder.tokens.length ≤ options.overlapTokens then (true, decoder)
  else
    let suffixTokens := decoder.tokens.drop (decoder.tokens.length - options.overlapTokens)
    let rawSuffix := decodeRaw options suffixTokens
    let shared := common decoder.emitted.reverse rawSuffix.reverse
    if shared = 0 ∨ shared * 2 < rawSuffix.length then (false, decoder)
    else (true, {
      tokens := suffixTokens
      decodePrefix := rawSuffix.take (rawSuffix.length - shared)
      emitted := rawSuffix.drop (rawSuffix.length - shared) })

/-- Where the text ends that later tokens cannot change. -/
def stableEnd (current : Text) (emitted : Nat) (final : Bool) : Nat :=
  if final then current.length
  else match (current.drop emitted).findIdx? (· = replacement) with
    | some index => emitted + index
    | none => current.length

/-- `push` behind the compaction of a full window. -/
def accept (decoder : IncrementalTokenDecoder) (token : Nat) (final : Bool) :
    Except String (Text × IncrementalTokenDecoder) := do
  let tokens := decoder.tokens ++ [token]
  let current ← decoder.decode options tokens
  ensure (decoder.emitted <+: current) "tokenizer changed an already streamed text prefix"
  let stable := stableEnd current decoder.emitted.length final
  let seen := { decoder with tokens, emitted := current.take stable }
  let settled := if stable = current.length ∧ 2 * options.overlapTokens < tokens.length
    then (compact options seen).2 else seen
  ensure (settled.tokens.length ≤ options.maximumWindowTokens)
    "tokenizer has no bounded stable streaming boundary"
  pure ((current.take stable).drop decoder.emitted.length, settled)

def push (decoder : IncrementalTokenDecoder) (token : Nat) (final : Bool) :
    Except String (Text × IncrementalTokenDecoder) := do
  let compacted := if options.maximumWindowTokens ≤ decoder.tokens.length
    then compact options decoder else (true, decoder)
  ensure (compacted.1 = true) "tokenizer has no bounded stable streaming boundary"
  compacted.2.accept options token final

/-- The deltas of the tokens one by one; the last push is final. -/
def pushAll (decoder : IncrementalTokenDecoder) : List Nat → Except String (List Text)
  | [] => .ok []
  | token :: rest => do
    let pushed ← decoder.push options token rest.isEmpty
    let later ← pushed.2.pushAll rest
    pure (pushed.1 :: later)

/-- Streaming the tokens gives what they decode to at once, and no delta is taken back. -/
structure StreamsWhole (tokens : List Nat) (deltas : List Text) : Prop where
  whole : deltas.flatten = decodeRaw options tokens
  kept : ∀ count, (deltas.take count).flatten <+: decodeRaw options tokens

/-- Whenever the window is full before a push, all that it decodes to has been emitted. -/
def HoldsNothing (decoder : IncrementalTokenDecoder) : List Nat → Prop
  | [] => True
  | token :: rest =>
    (options.maximumWindowTokens ≤ decoder.tokens.length →
      decodeRaw options decoder.tokens = decoder.decodePrefix ++ decoder.emitted) ∧
    ∀ pushed, decoder.push options token rest.isEmpty = .ok pushed →
      HoldsNothing pushed.2 rest

variable {options} {decoder : IncrementalTokenDecoder} {tokens all : List Nat} {token : Nat}
  {out : Text} {lost : Nat}

variable (options) in
/-- The bytes that are decoded for tokens. -/
def bytesOf (tokens : List Nat) : Bytes :=
  tokens.flatMap fun token =>
    if token ∈ options.suppressedTokenIds ∨
        (options.preserveSpecialTokens = false ∧ options.tokenizer.special token = true)
    then [] else options.tokenizer.bytes token

theorem flatMap_filter {α β : Type} {keeps : α → Bool} {items : List α} {parts : α → List β} :
    (items.filter keeps).flatMap parts =
      items.flatMap fun item => if keeps item = true then parts item else [] := by
  induction items with
  | nil => rfl
  | cons item rest ih =>
    rw [filter_cons, flatMap_cons]
    by_cases hkeeps : keeps item = true
    · rw [if_pos hkeeps, if_pos hkeeps, flatMap_cons, ih]
    · rw [if_neg hkeeps, if_neg hkeeps, ih, nil_append]

theorem decodeRaw_eq : decodeRaw options tokens = Utf8.decode (bytesOf options tokens) := by
  have hkept : (if options.suppressedTokenIds ≠ [] then
      tokens.filter fun token => decide (token ∉ options.suppressedTokenIds) else tokens) =
      tokens.filter fun token => decide (token ∉ options.suppressedTokenIds) := by
    split
    · rfl
    · rename_i hnone
      rw [not_not.1 hnone]
      exact (filter_eq_self.2 fun token _ => by simp).symm
  unfold decodeRaw Tokenizer.decode bytesOf
  rw [hkept]
  congr 1
  cases options.preserveSpecialTokens with
  | true =>
    simp only [Bool.not_true, Bool.false_eq_true, if_false, flatMap_filter, decide_eq_true_eq,
      ite_not]
    simp
  | false =>
    simp only [Bool.not_false, if_true, flatMap_filter, filter_filter]
    refine flatMap_congr fun token _ => ?_
    by_cases hsuppressed : token ∈ options.suppressedTokenIds
    · simp [hsuppressed]
    · cases hspecial : options.tokenizer.special token with
      | true => simp [hsuppressed]
      | false => simp [hsuppressed]

theorem bytesOf_append {first second : List Nat} :
    bytesOf options (first ++ second) = bytesOf options first ++ bytesOf options second :=
  flatMap_append

/-- A window whose text ends in a character that is not replaced ends at a character boundary, and
so do all the tokens. -/
theorem boundary_of_window {front : List Nat} {text : Text} {last : Char}
    (h : decodeRaw options tokens = text ++ [last]) (hlast : last ≠ replacement)
    (further : Bytes) :
    Utf8.decode (bytesOf options (front ++ tokens) ++ further) =
      decodeRaw options (front ++ tokens) ++ Utf8.decode further := by
  rw [decodeRaw_eq] at h ⊢
  refine decode_append ?_
  rw [bytesOf_append]
  exact boundary_append hlast h

variable {first second held emitted : Text} {final : Bool} {pushed : Text × IncrementalTokenDecoder}

theorem common_le : common first second ≤ second.length := by
  induction first generalizing second with
  | nil => exact Nat.zero_le _
  | cons symbol rest ih =>
    cases second with
    | nil => exact Nat.zero_le _
    | cons other others =>
      unfold common
      split
      · exact Nat.succ_le_succ ih
      · exact Nat.zero_le _

theorem take_common {first second : Text} : second.take (common first second) <+: first := by
  induction first generalizing second with
  | nil => exact prefix_rfl
  | cons symbol rest ih =>
    cases second with
    | nil => exact nil_prefix
    | cons other others =>
      unfold common
      split
      · rename_i hsame
        rw [take_succ_cons, hsame]
        exact (prefix_cons_inj other).2 ih
      · exact nil_prefix

theorem drop_common :
    second.drop (second.length - common first.reverse second.reverse) <:+ first := by
  have hprefix := @take_common first.reverse second.reverse
  rw [take_reverse, reverse_prefix] at hprefix
  exact hprefix

/-- The emitted text is found again in what the window decodes to; behind it the window decodes
whatever follows as all the tokens do, but for so many symbols that were lost. -/
structure Anchored (options : DecoderOptions) (all : List Nat) (out : Text) (lost : Nat)
    (decoder : IncrementalTokenDecoder) : Prop where
  window : decoder.tokens <:+ all
  clean : replacement ∉ decoder.emitted
  decoded : decoder.decodePrefix ++ decoder.emitted <+: decodeRaw options decoder.tokens
  anchor : ∃ early, out = early ++ decoder.emitted ∧ ∀ further, ∃ rest,
    Utf8.decode (bytesOf options decoder.tokens ++ further) = decoder.decodePrefix ++ rest ∧
    (Utf8.decode (bytesOf options all ++ further)).length = early.length + lost + rest.length ∧
    (lost = 0 → Utf8.decode (bytesOf options all ++ further) = early ++ rest)

theorem anchored_start : Anchored options [] [] 0 {} := by
  refine ⟨suffix_rfl, not_mem_nil, nil_prefix, [], rfl, fun further => ?_⟩
  refine ⟨Utf8.decode further, rfl, ?_, fun _ => rfl⟩
  exact (Nat.zero_add _).symm

theorem Anchored.cut (h : Anchored options all out lost decoder) {suffix : List Nat}
    (hsuffix : suffix <:+ decoder.tokens) (hheld : decodeRaw options decoder.tokens =
      decoder.decodePrefix ++ decoder.emitted ++ held) {shared : Nat}
    (hshared : shared = common decoder.emitted.reverse (decodeRaw options suffix).reverse)
    (hsome : shared ≠ 0) :
    Anchored options all out (lost + held.length) {
      tokens := suffix
      decodePrefix := (decodeRaw options suffix).take ((decodeRaw options suffix).length - shared)
      emitted := (decodeRaw options suffix).drop
        ((decodeRaw options suffix).length - shared) } := by
  obtain ⟨early, hout, hrests⟩ := h.anchor
  have hcommon : (decodeRaw options suffix).drop
      ((decodeRaw options suffix).length - shared) <:+ decoder.emitted := by
    rw [hshared]
    exact drop_common
  have hsplit := (take_append_drop ((decodeRaw options suffix).length - shared)
    (decodeRaw options suffix)).symm
  have hle : shared ≤ (decodeRaw options suffix).length := by
    rw [hshared]
    exact Nat.le_trans common_le (Nat.le_of_eq length_reverse)
  have hlength : ((decodeRaw options suffix).drop
      ((decodeRaw options suffix).length - shared)).length = shared := by
    rw [length_drop]
    omega
  generalize (decodeRaw options suffix).drop
    ((decodeRaw options suffix).length - shared) = again at hcommon hsplit hlength ⊢
  generalize (decodeRaw options suffix).take
    ((decodeRaw options suffix).length - shared) = before at hsplit ⊢
  have hclean : replacement ∉ again := fun hmem => h.clean (hcommon.subset hmem)
  rcases eq_nil_or_concat again with hnil | ⟨front, last, hlast⟩
  · rw [hnil] at hlength
    exact absurd hlength.symm hsome
  rw [concat_eq_append] at hlast
  have hraw : decodeRaw options suffix = (before ++ front) ++ [last] := by
    rw [hsplit, hlast, append_assoc]
  have hreal : last ≠ replacement := by
    intro hreplaced
    apply hclean
    rw [hlast, hreplaced]
    exact mem_append_right _ (mem_singleton_self _)
  have hboundary : ∀ text : List Nat, suffix <:+ text → ∀ further,
      Utf8.decode (bytesOf options text ++ further) =
        decodeRaw options text ++ Utf8.decode further := by
    intro text htext further
    obtain ⟨behind, rfl⟩ := htext
    exact boundary_of_window hraw hreal further
  obtain ⟨first, hfirst⟩ := hcommon
  obtain ⟨rest, hwindow, hcount, hexact⟩ := hrests []
  rw [append_nil, ← decodeRaw_eq, hheld, append_assoc] at hwindow
  have hrest := (append_cancel_left hwindow).symm
  rw [append_nil, ← decodeRaw_eq] at hcount hexact
  refine ⟨hsuffix.trans h.window, hclean, ?_, early ++ first, ?_, fun further => ?_⟩
  · exact hsplit ▸ prefix_rfl
  · rw [append_assoc, hfirst, hout]
  · refine ⟨again ++ Utf8.decode further, ?_, ?_, fun hnone => ?_⟩
    · rw [hboundary suffix suffix_rfl, hsplit, append_assoc]
    · rw [hboundary all (hsuffix.trans h.window), length_append, hcount, hrest, ← hfirst]
      simp only [length_append]
      omega
    · have hlost : lost = 0 := by omega
      have hempty : held = [] := length_eq_zero_iff.1 (by omega)
      rw [hboundary all (hsuffix.trans h.window), hexact hlost, hrest, hempty, ← hfirst]
      simp only [append_assoc, append_nil]

theorem Anchored.compact (h : Anchored options all out lost decoder)
    (hheld : decodeRaw options decoder.tokens =
      decoder.decodePrefix ++ decoder.emitted ++ held)
    (hlong : options.overlapTokens < decoder.tokens.length)
    (hboundary : (decoder.compact options).1 = true) :
    Anchored options all out (lost + held.length) (decoder.compact options).2 := by
  unfold IncrementalTokenDecoder.compact at hboundary ⊢
  rw [if_neg (Nat.not_le.2 hlong)] at hboundary ⊢
  dsimp only at hboundary ⊢
  split at hboundary
  · cases hboundary
  · rename_i hfound
    rw [if_neg hfound]
    exact h.cut (drop_suffix _ _) hheld rfl fun hnone => hfound (.inl hnone)

theorem Anchored.settle (h : Anchored options all out lost decoder)
    (hall : decodeRaw options decoder.tokens = decoder.decodePrefix ++ decoder.emitted) :
    Anchored options all out lost (decoder.compact options).2 := by
  by_cases hlong : options.overlapTokens < decoder.tokens.length
  · cases hboundary : (decoder.compact options).1 with
    | true => exact h.compact (hall.trans (append_nil _).symm) hlong hboundary
    | false =>
      have hsame : (decoder.compact options).2 = decoder := by
        unfold IncrementalTokenDecoder.compact at hboundary ⊢
        rw [if_neg (Nat.not_le.2 hlong)] at hboundary ⊢
        dsimp only at hboundary ⊢
        split
        · rfl
        · rename_i hfound
          rw [if_neg hfound] at hboundary
          cases hboundary
      rw [hsame]
      exact h
  · have hsame : decoder.compact options = (true, decoder) := by
      exact if_pos (Nat.not_lt.1 hlong)
    rw [hsame]
    exact h

theorem stableEnd_le {current : Text} {emitted : Nat} {final : Bool}
    (hle : emitted ≤ current.length) :
    emitted ≤ stableEnd current emitted final ∧
      stableEnd current emitted final ≤ current.length := by
  unfold stableEnd
  split
  · exact ⟨hle, Nat.le_refl _⟩
  · split
    · rename_i index hindex
      have hinside := (findIdx?_eq_some_iff_findIdx_eq.1 hindex).1
      rw [length_drop] at hinside
      omega
    · exact ⟨hle, Nat.le_refl _⟩

theorem stableEnd_clean {more : Text} (hclean : replacement ∉ emitted) :
    replacement ∉ (emitted ++ more).take (stableEnd (emitted ++ more) emitted.length false) := by
  unfold stableEnd
  rw [if_neg Bool.false_ne_true, drop_left]
  cases hindex : more.findIdx? (fun symbol => decide (symbol = replacement)) with
  | none =>
    rw [take_length]
    intro hmem
    rcases mem_append.1 hmem with hearly | hlate
    · exact hclean hearly
    · have hnone := findIdx?_eq_none_iff.1 hindex replacement hlate
      simp at hnone
  | some index =>
    rw [take_length_add_append]
    intro hmem
    rcases mem_append.1 hmem with hearly | hlate
    · exact hclean hearly
    · obtain ⟨place, hplace, hsymbol⟩ := mem_take_iff_getElem.1 hlate
      obtain ⟨_, _, hbefore⟩ := findIdx?_eq_some_iff_getElem.1 hindex
      have hother := hbefore place (by omega)
      simp [hsymbol] at hother

theorem accept_ok (h : decoder.accept options token final = .ok pushed) : ∃ current,
      decodeRaw options (decoder.tokens ++ [token]) = decoder.decodePrefix ++ current ∧
      decoder.emitted <+: current ∧
      pushed.1 = (current.take (stableEnd current decoder.emitted.length final)).drop
        decoder.emitted.length ∧
      pushed.2 = if stableEnd current decoder.emitted.length final = current.length ∧
          2 * options.overlapTokens < (decoder.tokens ++ [token]).length
        then (IncrementalTokenDecoder.compact options { decoder with
          tokens := decoder.tokens ++ [token]
          emitted := current.take (stableEnd current decoder.emitted.length final) }).2
        else { decoder with
          tokens := decoder.tokens ++ [token]
          emitted := current.take (stableEnd current decoder.emitted.length final) } := by
  obtain ⟨current, hcurrent, h⟩ := bind_ok.1 h
  obtain ⟨_, hemitted, h⟩ := bind_ok.1 h
  obtain ⟨_, _, h⟩ := bind_ok.1 h
  obtain ⟨_, hprefix, hcurrent⟩ := bind_ok.1 hcurrent
  obtain ⟨later, hlater⟩ := ensure_ok.1 hprefix
  have hdrop := pure_ok.1 hcurrent
  rw [← hlater, drop_left] at hdrop
  subst hdrop
  have hpushed := pure_ok.1 h
  subst hpushed
  exact ⟨later, hlater.symm, ensure_ok.1 hemitted, rfl, rfl⟩

theorem out_append {early current : Text} {stable : Nat} (hemitted : emitted <+: current)
    (hstable : emitted.length ≤ stable) :
    early ++ emitted ++ (current.take stable).drop emitted.length =
      early ++ current.take stable := by
  obtain ⟨more, rfl⟩ := hemitted
  obtain ⟨extra, rfl⟩ := Nat.exists_eq_add_of_le hstable
  rw [take_length_add_append, drop_left, append_assoc]

section

variable (h : Anchored options all out lost decoder)

include h

theorem Anchored.accept (haccept : decoder.accept options token false = .ok pushed) :
    Anchored options (all ++ [token]) (out ++ pushed.1) lost pushed.2 := by
  obtain ⟨current, hraw, hemitted, hdelta, hnext⟩ := accept_ok haccept
  obtain ⟨hfrom, hto⟩ := @stableEnd_le current decoder.emitted.length false hemitted.length_le
  obtain ⟨early, hout, hrests⟩ := h.anchor
  have hclean : replacement ∉
      current.take (stableEnd current decoder.emitted.length false) := by
    obtain ⟨more, rfl⟩ := hemitted
    exact stableEnd_clean h.clean
  have hseen : Anchored options (all ++ [token]) (out ++ pushed.1) lost { decoder with
      tokens := decoder.tokens ++ [token]
      emitted := current.take (stableEnd current decoder.emitted.length false) } := by
    refine ⟨?_, hclean, ?_, early, ?_, fun further => ?_⟩
    · obtain ⟨front, hfront⟩ := h.window
      exact ⟨front, by rw [← hfront, append_assoc]⟩
    · dsimp only
      rw [hraw]
      exact (prefix_append_right_inj _).2 (List.take_prefix _ _)
    · rw [hout, hdelta]
      exact out_append hemitted hfrom
    · obtain ⟨rest, hrest⟩ := hrests (bytesOf options [token] ++ further)
      refine ⟨rest, ?_⟩
      simp only [bytesOf_append, append_assoc]
      exact hrest
  rw [hnext]
  split
  · rename_i hall
    refine hseen.settle ?_
    rw [hraw, hall.1, take_length]
  · exact hseen

theorem Anchored.accept_final (haccept : decoder.accept options token true = .ok pushed) :
    out ++ pushed.1 = decodeRaw options (all ++ [token]) ↔ lost = 0 := by
  obtain ⟨current, hraw, hemitted, hdelta, -⟩ := accept_ok haccept
  obtain ⟨early, hout, hrests⟩ := h.anchor
  have hstable : stableEnd current decoder.emitted.length true = current.length := if_pos rfl
  have hall : out ++ pushed.1 = early ++ current := by
    rw [hout, hdelta, hstable, out_append hemitted hemitted.length_le, take_length]
  obtain ⟨rest, hwindow, hcount, hexact⟩ := hrests (bytesOf options [token])
  rw [← bytesOf_append, ← decodeRaw_eq, hraw] at hwindow
  have hrest := append_cancel_left hwindow
  rw [← bytesOf_append, ← decodeRaw_eq, ← hrest] at hcount hexact
  rw [hall]
  constructor
  · intro hsame
    rw [← hsame, length_append] at hcount
    omega
  · intro hnone
    exact (hexact hnone).symm

theorem Anchored.push (hpush : decoder.push options token final = .ok pushed) : ∃ more compacted,
      Anchored options all out (lost + more) compacted ∧
      compacted.accept options token final = .ok pushed ∧
      (more = 0 ↔ (options.maximumWindowTokens ≤ decoder.tokens.length →
        decodeRaw options decoder.tokens = decoder.decodePrefix ++ decoder.emitted)) := by
  obtain ⟨_, hboundary, haccept⟩ := bind_ok.1 hpush
  have hboundary := ensure_ok.1 hboundary
  by_cases hfull : options.maximumWindowTokens ≤ decoder.tokens.length
  · rw [if_pos hfull] at hboundary haccept
    obtain ⟨held, hheld⟩ := h.decoded
    have hlong := Nat.lt_of_lt_of_le options.window hfull
    refine ⟨held.length, _, h.compact hheld.symm hlong hboundary, haccept, ?_⟩
    rw [length_eq_zero_iff, ← hheld]
    constructor
    · intro hnone _
      rw [hnone, append_nil]
    · intro hall
      exact append_right_eq_self.1 (hall hfull)
  · rw [if_neg hfull] at haccept
    exact ⟨0, decoder, h, haccept, iff_of_true rfl fun hless => absurd hless hfull⟩

end

theorem holdsNothing_cons {rest : List Nat} {pushed : Text × IncrementalTokenDecoder}
    (hpush : decoder.push options token rest.isEmpty = .ok pushed) :
    HoldsNothing options decoder (token :: rest) ↔
      (options.maximumWindowTokens ≤ decoder.tokens.length →
        decodeRaw options decoder.tokens = decoder.decodePrefix ++ decoder.emitted) ∧
      HoldsNothing options pushed.2 rest := by
  refine and_congr_right fun _ => ?_
  constructor
  · intro h
    exact h pushed hpush
  · intro h other hother
    rw [hpush] at hother
    cases hother
    exact h

theorem Anchored.pushAll (h : Anchored options all out lost decoder) {rest : List Nat}
    {deltas : List Text} (hrun : decoder.pushAll options (token :: rest) = .ok deltas) :
    out ++ deltas.flatten = decodeRaw options (all ++ token :: rest) ↔
      lost = 0 ∧ HoldsNothing options decoder (token :: rest) := by
  induction rest generalizing all out lost decoder token deltas with
  | nil =>
    obtain ⟨pushed, hpush, hrun⟩ := bind_ok.1 hrun
    obtain ⟨later, hlater, hdeltas⟩ := bind_ok.1 hrun
    obtain ⟨more, compacted, hcompacted, haccept, hmore⟩ := h.push hpush
    cases hlater
    cases pure_ok.1 hdeltas
    rw [holdsNothing_cons hpush, ← hmore, flatten_singleton, hcompacted.accept_final haccept]
    unfold HoldsNothing
    rw [and_true]
    omega
  | cons next rest ih =>
    obtain ⟨pushed, hpush, hrun⟩ := bind_ok.1 hrun
    obtain ⟨later, hlater, hdeltas⟩ := bind_ok.1 hrun
    obtain ⟨more, compacted, hcompacted, haccept, hmore⟩ := h.push hpush
    have hnext := ih (hcompacted.accept haccept) hlater
    cases pure_ok.1 hdeltas
    rw [holdsNothing_cons hpush, ← hmore, flatten_cons, ← append_assoc,
      append_cons, hnext, Nat.add_eq_zero_iff, and_assoc]

/-- The deltas are the text of all the tokens exactly when no window is full while text is held
back. -/
theorem streams_whole_iff {deltas : List Text}
    (h : IncrementalTokenDecoder.pushAll options {} tokens = .ok deltas) :
    StreamsWhole options tokens deltas ↔ HoldsNothing options {} tokens := by
  have hwhole : deltas.flatten = decodeRaw options tokens ↔ HoldsNothing options {} tokens := by
    cases tokens with
    | nil =>
      cases h
      refine iff_of_true ?_ trivial
      rw [decodeRaw_eq]
      rfl
    | cons token rest =>
      have hrun := anchored_start.pushAll h
      exact hrun.trans (and_iff_right rfl)
  constructor
  · intro hstreams
    exact hwhole.1 hstreams.whole
  · intro hheld
    refine ⟨hwhole.2 hheld, fun count => ?_⟩
    rw [← hwhole.2 hheld]
    exact (List.take_prefix count deltas).flatten

/-- Tokens of one byte, and a small window. -/
def byteOptions : DecoderOptions where
  tokenizer := { bytes := fun token => [UInt8.ofNat token], special := fun _ => false }
  overlapTokens := 1
  maximumWindowTokens := 3

theorem streams_split_character :
    StreamsWhole byteOptions [0x61, 0xc3, 0xa9] [['a'], [], ['é']] := by
  have hfirst : push byteOptions {} 0x61 false =
      .ok (['a'], { tokens := [0x61], emitted := ['a'] }) := by decide +kernel
  have hsecond : push byteOptions { tokens := [0x61], emitted := ['a'] } 0xc3 false =
      .ok ([], { tokens := [0x61, 0xc3], emitted := ['a'] }) := by decide +kernel
  have hthird : push byteOptions { tokens := [0x61, 0xc3], emitted := ['a'] } 0xa9 true =
      .ok (['é'], { tokens := [0x61, 0xc3, 0xa9], emitted := ['a', 'é'] }) := by decide +kernel
  have hall : pushAll byteOptions {} [0x61, 0xc3, 0xa9] = .ok [['a'], [], ['é']] := by
    decide +kernel
  refine (streams_whole_iff hall).2 ?_
  rw [@holdsNothing_cons _ _ _ [0xc3, 0xa9] _ hfirst, @holdsNothing_cons _ _ _ [0xa9] _ hsecond,
    @holdsNothing_cons _ _ _ [] _ hthird]
  refine ⟨fun hfull => ?_, fun hfull => ?_, fun hfull => ?_, trivial⟩
  · exact absurd hfull (by decide)
  · exact absurd hfull (by decide)
  · exact absurd hfull (by decide)

/-- A byte that is no text is held back; when the window is full its end is taken for the text in
front of the byte. -/
theorem loses_stray : ∃ deltas,
    IncrementalTokenDecoder.pushAll byteOptions {} [0x61, 0xff, 0x61, 0x62] = .ok deltas ∧
      ¬ StreamsWhole byteOptions [0x61, 0xff, 0x61, 0x62] deltas := by
  refine ⟨[['a'], [], [], ['b']], by decide +kernel, fun h => ?_⟩
  have hwhole := h.whole
  revert hwhole
  decide +kernel

end IncrementalTokenDecoder

end QuantumLlm.Server
