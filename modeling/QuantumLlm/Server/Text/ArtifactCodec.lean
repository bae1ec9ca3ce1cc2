import QuantumLlm.Server.Text.StopFilter

/-!
# Streaming through an artifact codec

The parser that streams a completion as reasoning and content: the reasoning ends at the
thinking-end marker, the content in front of the tool-call or the EOS marker. Each phase is a
stop filter for its markers, and what follows the first marker is the content's first chunk.
-/

namespace QuantumLlm.Server

open Occurrences List

structure ArtifactChatCodec (Message : Type) where
  thinkingEndToken : Text
  toolCallsStartToken : Text
  eosToken : Text
  parse : Text → Bool → Message

inductive ResponseField where
  | reasoningContent
  | content
  deriving DecidableEq

/-- The event `region_chunk`; none of them is dirty. -/
structure RegionChunk where
  field : ResponseField
  text : Text
  dirty : Bool := false
  deriving DecidableEq

structure ArtifactCodecStreamParser where
  thinking : Bool
  field : ResponseField
  pending : Text := []
  rawPieces : List Text := []
  finished : Bool := false

/-- A text up to the first of some markers. -/
def textBefore (markers : List Text) (text : Text) : Text :=
  match earliest markers text with
  | some index => text.take index
  | none => text

namespace ArtifactChatCodec

variable {Message : Type} (codec : ArtifactChatCodec Message)

def start (thinking : Bool) : ArtifactCodecStreamParser :=
  { thinking, field := if thinking then .reasoningContent else .content }

/-- `_event` -/
def event (field : ResponseField) (text : Text) : List RegionChunk :=
  if text = [] then [] else [{ field, text }]

/-- The markers that end the content. -/
def markers : List Text := [codec.toolCallsStartToken, codec.eosToken].filter (· ≠ [])

/-- The loop in the content phase, which never goes round twice. -/
def contentLoop (parser : ArtifactCodecStreamParser) :
    List RegionChunk × ArtifactCodecStreamParser :=
  if parser.pending = [] then ([], parser)
  else match earliest codec.markers parser.pending with
    | some index =>
      (event .content (parser.pending.take index), { parser with pending := [], finished := true })
    | none =>
      let stable := parser.pending.length - heldEnd codec.markers parser.pending
      (event .content (parser.pending.take stable),
        { parser with pending := parser.pending.drop stable })

/-- The loop of `feed`: a marker in the reasoning leads over to the content. -/
def loop (parser : ArtifactCodecStreamParser) : List RegionChunk × ArtifactCodecStreamParser :=
  match parser.field with
  | .content => codec.contentLoop parser
  | .reasoningContent =>
    match find codec.thinkingEndToken parser.pending with
    | some index =>
      let (events, parser') := codec.contentLoop { parser with
        pending := parser.pending.drop (index + codec.thinkingEndToken.length)
        field := .content }
      (event .reasoningContent (parser.pending.take index) ++ events, parser')
    | none =>
      let stable := parser.pending.length -
        heldBy codec.thinkingEndToken parser.pending
          (min (codec.thinkingEndToken.length - 1) parser.pending.length)
      (event .reasoningContent (parser.pending.take stable),
        { parser with pending := parser.pending.drop stable })

def feed (parser : ArtifactCodecStreamParser) (delta : Text) :
    List RegionChunk × ArtifactCodecStreamParser :=
  if delta = [] then ([], parser)
  else
    let parser := { parser with rawPieces := parser.rawPieces ++ [delta] }
    if parser.finished then ([], parser)
    else codec.loop { parser with pending := parser.pending ++ delta }

def finalize (parser : ArtifactCodecStreamParser) : Message × List RegionChunk :=
  (codec.parse parser.rawPieces.flatten parser.thinking,
    if parser.finished = false ∧ parser.pending ≠ [] then event parser.field parser.pending else [])

def feedAll (parser : ArtifactCodecStreamParser) :
    List Text → List RegionChunk × ArtifactCodecStreamParser
  | [] => ([], parser)
  | delta :: rest =>
    let fed := codec.feed parser delta
    let later := feedAll fed.2 rest
    (fed.1 ++ later.1, later.2)

/-- The message and all events for a completion cut into deltas. -/
def stream (thinking : Bool) (deltas : List Text) : Message × List RegionChunk :=
  let fed := codec.feedAll (start thinking) deltas
  let finished := codec.finalize fed.2
  (finished.1, fed.1 ++ finished.2)

/-- What of a completion is reasoning. -/
def reasoningOf (thinking : Bool) (text : Text) : Text :=
  if thinking then textBefore [codec.thinkingEndToken] text else []

/-- What of a completion follows its reasoning. -/
def remaining (thinking : Bool) (text : Text) : Text :=
  if thinking then
    match find codec.thinkingEndToken text with
    | some index => text.drop (index + codec.thinkingEndToken.length)
    | none => []
  else text

end ArtifactChatCodec

/-- The texts of a field's events one behind the other. -/
def textOf (field : ResponseField) (events : List RegionChunk) : Text :=
  (events.filter (·.field = field)).flatMap (·.text)

/-- No marker occurs in another one. -/
def Apart (markers : List Text) : Prop :=
  markers.Pairwise fun left right => ¬ left <:+: right ∧ ¬ right <:+: left

instance (markers : List Text) : Decidable (Apart markers) :=
  inferInstanceAs (Decidable (List.Pairwise _ markers))

/-- The stream of a completion is that of the unsplit text. The marker that ends a phase, and
what may become one, is held back at every moment, also between two deltas. -/
structure ArtifactChatCodec.Streams {Message : Type} (codec : ArtifactChatCodec Message)
    (thinking : Bool) (deltas : List Text) : Prop where
  reasoning : textOf .reasoningContent (codec.stream thinking deltas).2 =
    codec.reasoningOf thinking deltas.flatten
  content : textOf .content (codec.stream thinking deltas).2 =
    textBefore codec.markers (codec.remaining thinking deltas.flatten)
  noThinkingEnd : ¬ codec.thinkingEndToken <:+:
    textOf .reasoningContent (codec.stream thinking deltas).2
  noMarker : ∀ marker ∈ codec.markers, ¬ marker <:+: textOf .content (codec.stream thinking deltas).2
  early : ∀ count field,
    textOf field (codec.feedAll (ArtifactChatCodec.start thinking) (deltas.take count)).1 <+:
      textOf field (codec.stream thinking deltas).2
  message : (codec.stream thinking deltas).1 = codec.parse deltas.flatten thinking

variable {stops chunks : List Text} {text chunk : Text} {index : Nat}

/-! ## Markers of which none contains another -/

theorem apart_infix (hapart : Apart stops) {left right : Text} (hleft : left ∈ stops)
    (hright : right ∈ stops) ( hinfix : left <:+: right) : left = right := by
  induction stops with
  | nil => cases hleft
  | cons first rest ih =>
    obtain ⟨hfirst, hrest⟩ := pairwise_cons.1 hapart
    rcases mem_cons.1 hleft with rfl | hleftRest
    · rcases mem_cons.1 hright with rfl | hrightRest
      · rfl
      · exact absurd hinfix (hfirst right hrightRest).1
    · rcases mem_cons.1 hright with rfl | hrightRest
      · exact absurd hinfix (hfirst left hleftRest).2
      · exact ih hrest hleftRest hrightRest

/-- The first place of a marker stays the first one in a longer text: a marker that starts
earlier and ends later would contain the one found. -/
theorem earliest_append_of_apart (hapart : Apart stops) (h : earliest stops text = some index)
    (more : Text) : earliest stops (text ++ more) = some index := by
  obtain ⟨⟨stop, hstop, front, behind, rfl, rfl⟩, hleast⟩ := earliest_some_iff.1 h
  refine earliest_some_iff.2 ⟨⟨stop, hstop, front, behind ++ more, by simp, rfl⟩, ?_⟩
  intro other hother found hfound hoccurs
  obtain ⟨before, after, htext, rfl⟩ := hoccurs
  by_cases hends : before.length + found.length ≤ (front ++ stop ++ behind).length
  · have hprefix : before ++ found <+: front ++ stop ++ behind := by
      refine prefix_of_prefix_length_le ⟨after, htext.symm⟩ (prefix_append _ more) ?_
      rw [length_append]
      exact hends
    obtain ⟨rest, hrest⟩ := hprefix
    exact hleast before.length hother found hfound ⟨before, rest, hrest.symm, rfl⟩
  · simp only [length_append] at hends
    have hlonger : stop.length < found.length := by omega
    obtain ⟨gap, rfl⟩ : ∃ gap, front = before ++ gap := by
      have hbefore : before <+: front ++ stop ++ behind ++ more :=
        ⟨found ++ after, by rw [← append_assoc, ← htext]⟩
      have hfront : front <+: front ++ stop ++ behind ++ more := by
        simp only [append_assoc]
        exact prefix_append front _
      obtain ⟨gap, hgap⟩ :=
        prefix_of_prefix_length_le hbefore hfront (Nat.le_of_lt hother)
      exact ⟨gap, hgap.symm⟩
    have hsame : gap ++ stop ++ (behind ++ more) = found ++ after := by
      simp only [append_assoc] at htext ⊢
      exact append_cancel_left htext
    have hinside : gap ++ stop <+: found := by
      refine prefix_of_prefix_length_le ⟨behind ++ more, hsame⟩ (prefix_append _ _) ?_
      simp only [length_append] at hends ⊢
      omega
    have hequal := apart_infix hapart hstop hfound
      ((suffix_append gap stop).isInfix.trans hinside.isInfix)
    rw [hequal] at hlonger
    exact Nat.lt_irrefl _ hlonger

/-- A stop filter for such markers ends the text in front of the first one, however it is cut. -/
theorem stream_of_apart (hstops : ∀ stop ∈ stops, stop ≠ []) (hapart : Apart stops)
    (chunks : List Text) : (stream stops chunks).1 = textBefore stops chunks.flatten := by
  unfold textBefore
  rcases incomplete_or_completes hstops chunks with hnone | ⟨front, chunk, rest, index, rfl, hfront,
    hsome⟩
  · have hwhole : earliest stops chunks.flatten = none := by
      have hall := hnone chunks.length
      rwa [take_length] at hall
    rw [stream_of_incomplete hstops hnone, hwhole]
  · have hwhole : earliest stops (front ++ chunk :: rest).flatten = some index := by
      rw [flatten_append, flatten_cons, ← append_assoc]
      exact earliest_append_of_apart hapart hsome rest.flatten
    rw [stream_of_completes rest hstops hfront hsome, hwhole]

theorem not_infix_textBefore (stop : Text) (hstop : stop ∈ stops) (hsome : stop ≠ []) :
    ¬ stop <:+: textBefore stops text := by
  rintro ⟨front, behind, htext⟩
  unfold textBefore at htext
  split at htext
  next index hindex =>
    refine (earliest_some_iff.1 hindex).2 front.length ?_ stop hstop
      ⟨front, behind ++ text.drop index, ?_, rfl⟩
    · have hlength := congrArg List.length htext
      have hpos := length_pos_iff.2 hsome
      simp only [length_append, length_take] at hlength
      omega
    · rw [← append_assoc, htext, take_append_drop]
  next hnone =>
    exact earliest_none_iff.1 hnone front.length stop hstop ⟨front, behind, htext.symm, rfl⟩

theorem textBefore_nil (stops : List Text) : textBefore stops [] = [] := by
  unfold textBefore
  split <;> simp

theorem earliest_singleton (stop text : Text) : earliest [stop] text = find stop text := by
  unfold earliest
  cases hfind : find stop text with
  | none => simp [hfind]
  | some index => simp [hfind]

@[simp] theorem textOf_append {field : ResponseField} (first second : List RegionChunk) :
    textOf field (first ++ second) = textOf field first ++ textOf field second := by
  simp [textOf]

@[simp] theorem textOf_event (field other : ResponseField) (text : Text) :
    textOf field (ArtifactChatCodec.event other text) = if other = field then text else [] := by
  unfold textOf ArtifactChatCodec.event
  split
  next h => simp [h]
  next => by_cases hfield : other = field <;> simp [hfield]

/-! ## The phases as stop filters -/

namespace ArtifactChatCodec

variable {Message : Type} {codec : ArtifactChatCodec Message} {parser : ArtifactCodecStreamParser}
  {filter : StopFilter} {deltas : List Text} {delta emitted : Text}

theorem markers_ne : ∀ marker ∈ codec.markers, marker ≠ [] := by
  intro marker hmarker
  simpa using (mem_filter.1 hmarker).2

/-- The parser is in the content phase, like a filter for the markers. -/
structure Follows (codec : ArtifactChatCodec Message) (parser : ArtifactCodecStreamParser)
    (filter : StopFilter) : Prop where
  field : parser.field = .content
  pending : parser.pending = filter.pending
  finished : parser.finished = filter.stopped
  stops : filter.stops = codec.markers

theorem contentLoop_eq (pending : Text) (hfield : parser.field = .content)
    (hfinished : parser.finished = false) :
    ∃ parser', codec.contentLoop { parser with pending := pending ++ delta } =
        (event .content (StopFilter.feed { stops := codec.markers, pending } delta).1, parser') ∧
      Follows codec parser' (StopFilter.feed { stops := codec.markers, pending } delta).2 := by
  unfold contentLoop StopFilter.feed
  by_cases hempty : pending ++ delta = []
  · have hnone : earliest codec.markers ([] : Text) = none :=
      earliest_none_iff.2 (running_start markers_ne).free
    simp only [hempty, hnone, Bool.false_eq_true, if_false, if_true, drop_nil]
    exact ⟨{ parser with pending := [] }, by simp [event], hfield, rfl, hfinished, rfl⟩
  · simp only [hempty, Bool.false_eq_true, if_false]
    cases hfound : earliest codec.markers (pending ++ delta) with
    | some index => exact ⟨_, rfl, hfield, rfl, rfl, rfl⟩
    | none => exact ⟨_, rfl, hfield, rfl, hfinished, rfl⟩

theorem feed_finished (hdelta : delta ≠ []) (hfinished : parser.finished = true) :
    codec.feed parser delta = ([], { parser with rawPieces := parser.rawPieces ++ [delta] }) := by
  simp [feed, hdelta, hfinished]

theorem feed_running (hdelta : delta ≠ []) (hfinished : parser.finished = false) :
    codec.feed parser delta = codec.loop { parser with
      rawPieces := parser.rawPieces ++ [delta], pending := parser.pending ++ delta } := by
  simp [feed, hdelta, hfinished]

theorem Follows.feed (h : Follows codec parser filter) (hdelta : delta ≠ []) :
    textOf .content (codec.feed parser delta).1 = (filter.feed delta).1 ∧
      textOf .reasoningContent (codec.feed parser delta).1 = [] ∧
      Follows codec (codec.feed parser delta).2 (filter.feed delta).2 := by
  obtain ⟨stops, pending, stopped⟩ := filter
  obtain ⟨hfield, rfl, rfl, rfl⟩ := h
  cases hfinished : parser.finished with
  | true =>
    rw [feed_finished hdelta hfinished]
    simp only [StopFilter.feed, if_true]
    exact ⟨rfl, rfl, hfield, rfl, hfinished, rfl⟩
  | false =>
    obtain ⟨parser', hloop, hfollows⟩ := @contentLoop_eq _ codec
      { parser with rawPieces := parser.rawPieces ++ [delta] } delta parser.pending hfield
      hfinished
    rw [feed_running hdelta hfinished]
    simp only [loop, hfield] at hloop ⊢
    rw [hloop]
    exact ⟨by simp, by simp, hfollows⟩

/-- All events for some deltas and the end of the completion. -/
def eventsFrom (codec : ArtifactChatCodec Message) (parser : ArtifactCodecStreamParser)
    (deltas : List Text) : List RegionChunk :=
  (codec.feedAll parser deltas).1 ++ (codec.finalize (codec.feedAll parser deltas).2).2

theorem eventsFrom_cons : codec.eventsFrom parser (delta :: deltas) =
    (codec.feed parser delta).1 ++ codec.eventsFrom (codec.feed parser delta).2 deltas := by
  simp only [eventsFrom, feedAll, append_assoc]

theorem Follows.events (h : Follows codec parser filter) (hdeltas : ∀ delta ∈ deltas, delta ≠ []) :
    textOf .content (codec.eventsFrom parser deltas) =
        (filter.feedAll deltas).1 ++ (filter.feedAll deltas).2.finish.1 ∧
      textOf .reasoningContent (codec.eventsFrom parser deltas) = [] := by
  induction deltas generalizing parser filter with
  | nil =>
    simp only [eventsFrom, feedAll, finalize, StopFilter.feedAll, StopFilter.finish,
      nil_append, h.field, h.pending, h.finished]
    by_cases hstopped : filter.stopped = true
    · simp [hstopped, textOf]
    · by_cases hpending : filter.pending = []
      · simp [hstopped, hpending, textOf]
      · simp [hstopped, hpending]
  | cons delta rest ih =>
    obtain ⟨hdelta, hrest⟩ := forall_mem_cons.1 hdeltas
    obtain ⟨hcontent, hreasoning, hfollows⟩ := h.feed hdelta
    obtain ⟨hlater, hnothing⟩ := ih hfollows hrest
    rw [eventsFrom_cons, textOf_append, textOf_append, hcontent, hreasoning, hlater, hnothing]
    simp only [StopFilter.feedAll, append_assoc, append_nil, and_self]

/-- The parser is in the reasoning phase, like a filter for the thinking-end marker. -/
structure Thinks (codec : ArtifactChatCodec Message) (parser : ArtifactCodecStreamParser)
    (filter : StopFilter) : Prop where
  field : parser.field = .reasoningContent
  pending : parser.pending = filter.pending
  finished : parser.finished = false
  stops : filter.stops = [codec.thinkingEndToken]

section

variable (h : Thinks codec parser filter)

include h

theorem Thinks.feed_none (hstopped : filter.stopped = false)
    (hdelta : delta ≠ []) (hnone : find codec.thinkingEndToken (filter.pending ++ delta) = none) :
    textOf .reasoningContent (codec.feed parser delta).1 = (filter.feed delta).1 ∧
      textOf .content (codec.feed parser delta).1 = [] ∧
      Thinks codec (codec.feed parser delta).2 (filter.feed delta).2 := by
  have hearliest := (earliest_singleton _ _).trans hnone
  rw [feed_running hdelta h.finished]
  unfold loop StopFilter.feed
  simp only [h.field, h.pending, hnone, hstopped, hearliest, heldEnd, h.stops, foldl_cons,
    foldl_nil, Nat.zero_max, textOf_event, Bool.false_eq_true, if_false]
  exact ⟨rfl, rfl, rfl, rfl, h.finished, rfl⟩

theorem Thinks.feed_some (hdelta : delta ≠ [])
    (hsome : find codec.thinkingEndToken (filter.pending ++ delta) = some index) :
    textOf .reasoningContent (codec.feed parser delta).1 = (filter.pending ++ delta).take index ∧
      textOf .content (codec.feed parser delta).1 = (StopFilter.feed { stops := codec.markers }
        ((filter.pending ++ delta).drop (index + codec.thinkingEndToken.length))).1 ∧
      Follows codec (codec.feed parser delta).2 (StopFilter.feed { stops := codec.markers }
        ((filter.pending ++ delta).drop (index + codec.thinkingEndToken.length))).2 := by
  obtain ⟨parser', hloop, hfollows⟩ := @contentLoop_eq _ codec
    { parser with rawPieces := parser.rawPieces ++ [delta], field := .content }
    ((filter.pending ++ delta).drop (index + codec.thinkingEndToken.length)) [] rfl h.finished
  rw [nil_append] at hloop
  rw [feed_running hdelta h.finished]
  unfold loop
  simp only [h.field, h.pending, hsome, textOf_append, textOf_event] at hloop ⊢
  rw [hloop]
  exact ⟨by simp, by simp, hfollows⟩

/-- Behind a text without the thinking-end marker. -/
theorem Thinks.events (hrunning : Running filter text emitted)
    (hapart : Apart codec.markers) (hdeltas : ∀ delta ∈ deltas, delta ≠ []) :
    emitted ++ textOf .reasoningContent (codec.eventsFrom parser deltas) =
        textBefore [codec.thinkingEndToken] (text ++ deltas.flatten) ∧
      textOf .content (codec.eventsFrom parser deltas) =
        textBefore codec.markers (codec.remaining true (text ++ deltas.flatten)) := by
  induction deltas generalizing parser filter text emitted with
  | nil =>
    have hnone : earliest [codec.thinkingEndToken] text = none := by
      rw [← h.stops]
      exact earliest_none_iff.2 hrunning.free
    have hremaining : codec.remaining true text = [] := by
      simp [remaining, ← earliest_singleton, hnone]
    rw [flatten_nil, append_nil, hremaining, textBefore_nil, textBefore, hnone]
    simp only [eventsFrom, feedAll, finalize, nil_append, h.field, h.finished, h.pending, true_and]
    by_cases hpending : filter.pending = []
    · have hsplit := hrunning.split
      rw [hpending] at hsplit
      simp [hpending, textOf, hsplit]
    · simp [hpending, hrunning.split]
  | cons delta rest ih =>
    obtain ⟨hdelta, hrest⟩ := forall_mem_cons.1 hdeltas
    have hlooked := hrunning.looked delta
    rw [h.stops, earliest_singleton, earliest_singleton] at hlooked
    rw [eventsFrom_cons, textOf_append, textOf_append, flatten_cons, ← append_assoc]
    cases hfind : find codec.thinkingEndToken (filter.pending ++ delta) with
    | none =>
      rw [hfind] at hlooked
      obtain ⟨hreasoning, hcontent, hthinks⟩ := h.feed_none hrunning.stopped hdelta hfind
      have hnone : earliest filter.stops (text ++ delta) = none := by
        rw [h.stops, earliest_singleton, hlooked, Option.map_none]
      obtain ⟨hlater, hbehind⟩ := ih hthinks (hrunning.feed_none hnone) hrest
      rw [hreasoning, hcontent, ← append_assoc]
      exact ⟨hlater, hbehind⟩
    | some index =>
      rw [hfind, Option.map_some] at hlooked
      obtain ⟨hreasoning, hcontent, hfollows⟩ := h.feed_some hdelta hfind
      obtain ⟨hlater, hnothing⟩ := hfollows.events hrest
      have hwhole := earliest_append_of_apart (pairwise_singleton _ _)
        ((earliest_singleton _ _).trans hlooked) rest.flatten
      have hsplit : text ++ delta = emitted ++ (filter.pending ++ delta) := by
        rw [hrunning.split, append_assoc]
      have hends : emitted.length + index + codec.thinkingEndToken.length ≤
          (text ++ delta).length := by
        obtain ⟨front, behind, htext, hfront⟩ := (find_some hlooked).1
        rw [htext, ← hfront]
        simp only [length_append]
        omega
      have hfront : (text ++ delta ++ rest.flatten).take (emitted.length + index) =
          emitted ++ (filter.pending ++ delta).take index := by
        rw [take_append_of_le_length (by omega), hsplit, take_length_add_append]
      have hbehind : (text ++ delta ++ rest.flatten).drop
          (emitted.length + index + codec.thinkingEndToken.length) =
          (((filter.pending ++ delta).drop (index + codec.thinkingEndToken.length)) ::
            rest).flatten := by
        rw [drop_append_of_le_length hends, hsplit, Nat.add_assoc, drop_append, flatten_cons]
        simp
      have hremaining : codec.remaining true (text ++ delta ++ rest.flatten) =
          ((filter.pending ++ delta).drop (index + codec.thinkingEndToken.length) ::
            rest).flatten := by
        rw [← hbehind, remaining, if_pos rfl, ← earliest_singleton, hwhole]
      rw [hreasoning, hcontent, hnothing, hlater, ← append_assoc text, hremaining,
        textBefore, hwhole]
      refine ⟨?_, ?_⟩
      · rw [append_nil]
        exact hfront.symm
      · rw [← stream_of_apart markers_ne hapart]
        simp only [Server.stream, StopFilter.feedAll, append_assoc]

end

/-! ## All of a completion -/

theorem feedAll_append (codec : ArtifactChatCodec Message) (parser : ArtifactCodecStreamParser)
    (front rest : List Text) : (codec.feedAll parser (front ++ rest)).1 =
      (codec.feedAll parser front).1 ++ (codec.feedAll (codec.feedAll parser front).2 rest).1 := by
  induction front generalizing parser with
  | nil => rfl
  | cons delta front ih => simp only [cons_append, feedAll, ih, append_assoc]

/-- Empty deltas are left out. -/
theorem feedAll_filter (codec : ArtifactChatCodec Message) (parser : ArtifactCodecStreamParser)
    (deltas : List Text) :
    codec.feedAll parser (deltas.filter (· ≠ [])) = codec.feedAll parser deltas := by
  induction deltas generalizing parser with
  | nil => rfl
  | cons delta rest ih =>
    by_cases hdelta : delta = []
    · subst hdelta
      have hskip : codec.feed parser [] = ([], parser) := by simp [feed]
      simpa [feedAll, hskip] using ih parser
    · rw [filter_cons_of_pos (by simpa using hdelta)]
      simp only [feedAll, ih]

theorem contentLoop_kept (codec : ArtifactChatCodec Message) (parser : ArtifactCodecStreamParser) :
    (codec.contentLoop parser).2.rawPieces = parser.rawPieces ∧
      (codec.contentLoop parser).2.thinking = parser.thinking := by
  unfold contentLoop
  split
  · exact ⟨rfl, rfl⟩
  · split <;> exact ⟨rfl, rfl⟩

theorem feed_kept (codec : ArtifactChatCodec Message) (parser : ArtifactCodecStreamParser)
    (delta : Text) :
    (codec.feed parser delta).2.rawPieces.flatten = parser.rawPieces.flatten ++ delta ∧
      (codec.feed parser delta).2.thinking = parser.thinking := by
  by_cases hdelta : delta = []
  · simp [feed, hdelta]
  · cases hfinished : parser.finished with
    | true => simp [feed_finished hdelta hfinished]
    | false =>
      rw [feed_running hdelta hfinished]
      unfold loop
      split
      · simp [contentLoop_kept]
      · split
        · simp [contentLoop_kept]
        · simp

theorem message_feedAll (codec : ArtifactChatCodec Message) (parser : ArtifactCodecStreamParser)
    (deltas : List Text) : (codec.finalize (codec.feedAll parser deltas).2).1 =
      codec.parse (parser.rawPieces.flatten ++ deltas.flatten) parser.thinking := by
  induction deltas generalizing parser with
  | nil => simp [feedAll, finalize]
  | cons delta rest ih =>
    obtain ⟨hpieces, hthinking⟩ := feed_kept codec parser delta
    simp only [feedAll, ih, hpieces, hthinking, flatten_cons, append_assoc]

theorem events_eq (hend : codec.thinkingEndToken ≠ []) (hapart : Apart codec.markers)
    (thinking : Bool) (deltas : List Text) :
    textOf .reasoningContent (codec.stream thinking deltas).2 =
        codec.reasoningOf thinking deltas.flatten ∧
      textOf .content (codec.stream thinking deltas).2 =
        textBefore codec.markers (codec.remaining thinking deltas.flatten) := by
  have hdeltas : ∀ delta ∈ deltas.filter (· ≠ []), delta ≠ [] := fun delta hmem => by
    simpa using (mem_filter.1 hmem).2
  have hstream : (codec.stream thinking deltas).2 =
      codec.eventsFrom (start thinking) (deltas.filter (· ≠ [])) := by
    simp only [stream, eventsFrom, feedAll_filter]
  rw [hstream, ← flatten_filter_ne_nil]
  cases thinking with
  | true =>
    have hthinks : Thinks codec (start true) { stops := [codec.thinkingEndToken] } :=
      ⟨rfl, rfl, rfl, rfl⟩
    have hrunning : Running { stops := [codec.thinkingEndToken] } [] [] :=
      running_start (by simpa using hend)
    simpa [reasoningOf] using hthinks.events hrunning hapart hdeltas
  | false =>
    have hfollows : Follows codec (start false) { stops := codec.markers } :=
      ⟨rfl, rfl, rfl, rfl⟩
    obtain ⟨hcontent, hreasoning⟩ := hfollows.events hdeltas
    refine ⟨hreasoning, hcontent.trans ?_⟩
    exact stream_of_apart markers_ne hapart (deltas.filter (· ≠ []))

/-- However a completion is cut into deltas, its stream is that of the unsplit text. -/
theorem stream_of_text (hend : codec.thinkingEndToken ≠ [])
    (hapart : Apart (codec.thinkingEndToken :: codec.markers)) (thinking : Bool)
    (deltas : List Text) : codec.Streams thinking deltas := by
  obtain ⟨hreasoning, hcontent⟩ :=
    events_eq hend (List.Pairwise.of_cons hapart) thinking deltas
  refine ⟨hreasoning, hcontent, ?_, ?_, ?_, ?_⟩
  · rw [hreasoning]
    unfold reasoningOf
    split
    · exact not_infix_textBefore _ (mem_singleton_self _) hend
    · simpa using hend
  · intro marker hmarker
    rw [hcontent]
    exact not_infix_textBefore marker hmarker (markers_ne marker hmarker)
  · intro count field
    have hcut := feedAll_append codec (start thinking) (deltas.take count) (deltas.drop count)
    rw [take_append_drop] at hcut
    simp only [stream, hcut, textOf_append, append_assoc]
    exact prefix_append _ _
  · exact message_feedAll codec (start thinking) deltas

/-- Its parser keeps the text as it is. -/
def sampleCodec : ArtifactChatCodec Text where
  thinkingEndToken := ['<', '/', 't', '>']
  toolCallsStartToken := ['<', 'c', '>']
  eosToken := ['<', 'e', '>']
  parse text _ := text

theorem stream_of_cut_markers :
    sampleCodec.Streams true [['a', '<', '/'], ['t', '>', 'b', '<'], [], ['c', '>', 'd']] :=
  stream_of_text (by decide) (by decide) true _

/-- A marker is text where it does not end the phase: behind the reasoning the thinking-end
marker is content. -/
theorem thinking_end_in_content :
    sampleCodec.thinkingEndToken ≠ [] ∧
      Apart (sampleCodec.thinkingEndToken :: sampleCodec.markers) ∧
      sampleCodec.thinkingEndToken <:+: textOf .content
        (sampleCodec.stream true [['a', '<', '/', 't', '>', 'b', '<', '/', 't', '>', 'c']]).2 := by
  refine ⟨by decide, by decide, ?_⟩
  rw [(events_eq (by decide) (by decide) true _).2]
  decide

end ArtifactChatCodec

end QuantumLlm.Server
