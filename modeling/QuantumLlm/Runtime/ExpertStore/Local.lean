import QuantumLlm.Lib.Pointwise
import QuantumLlm.Runtime.ExpertStore.Resolve

/-!
# Batches of the local store

What an item knows about its acquisition, kept while the futures complete, and
what a poll makes of it.
-/

namespace QuantumLlm.Runtime.ExpertStore

open List

variable {world world' : World}

/-! ## Acquisitions over time -/

/-- Every acquisition has completed or been cancelled. -/
def World.Settled (world : World) : Prop :=
  ∀ (index : Nat) (member : Member), world.members[index]? = some member →
    member.completion.isSome = true ∨ member.cancelled = true

/-- Every acquisition has completed. -/
def World.Completed (world : World) : Prop :=
  ∀ (index : Nat) (member : Member), world.members[index]? = some member →
    member.completion.isSome = true

/-- Later on: acquisitions, completions and cancellations stay. -/
structure World.Later (world world' : World) : Prop where
  members : ∀ (index : Nat) (member : Member), world.members[index]? = some member →
    ∃ later, world'.members[index]? = some later ∧ later.kind = member.kind ∧
      later.key = member.key ∧
      (∀ completion, member.completion = some completion → later.completion = some completion) ∧
      (member.cancelled = true → later.cancelled = true)
  ready : ∀ grant ∈ world.ready, grant ∈ world'.ready

/-- Later on, with no new acquisition. -/
structure World.Extends (world world' : World) : Prop extends World.Later world world' where
  length_eq : world'.members.length = world.members.length

theorem World.Later.completion (h : world.Later world') {handle : Option Nat} {found : Completion}
    (hfound : world.completion handle = some found) : world'.completion handle = some found := by
  cases handle with
  | none => cases hfound
  | some index =>
    simp only [World.completion, Option.bind_some] at hfound ⊢
    obtain ⟨member, hmember, hcompletion⟩ := Option.bind_eq_some_iff.1 hfound
    obtain ⟨later, hlater, -, -, hsame, -⟩ := h.members index member hmember
    rw [hlater]
    exact hsame found hcompletion

theorem World.Later.trans {world'' : World} (first : world.Later world')
    (second : world'.Later world'') : world.Later world'' where
  members index member hmember := by
    obtain ⟨middle, hmiddle, hkind, hkey, hcompletion, hcancelled⟩ := first.members index member hmember
    obtain ⟨later, hlater, hkind', hkey', hcompletion', hcancelled'⟩ :=
      second.members index middle hmiddle
    exact ⟨later, hlater, hkind'.trans hkind, hkey'.trans hkey,
      fun completion h => hcompletion' completion (hcompletion completion h),
      fun h => hcancelled' (hcancelled h)⟩
  ready grant h := second.ready grant (first.ready grant h)

namespace World.Extends

theorem refl (world : World) : world.Extends world where
  members _ member hmember := ⟨member, hmember, rfl, rfl, fun _ h => h, id⟩
  ready _ h := h
  length_eq := rfl

theorem trans {world'' : World} (first : world.Extends world') (second : world'.Extends world'') :
    world.Extends world'' where
  toLater := first.toLater.trans second.toLater
  length_eq := second.length_eq.trans first.length_eq

theorem before (h : world.Extends world') {index : Nat} {later : Member}
    (hlater : world'.members[index]? = some later) : ∃ member,
      world.members[index]? = some member ∧ later.kind = member.kind ∧ later.key = member.key ∧
      (∀ completion, member.completion = some completion → later.completion = some completion) ∧
      (member.cancelled = true → later.cancelled = true) := by
  have hlt : index < world.members.length := by
    rw [← h.length_eq]
    exact (List.getElem?_eq_some_iff.1 hlater).1
  obtain ⟨found, hfound, hsame⟩ := h.members index _ (List.getElem?_eq_getElem hlt)
  rw [hlater, Option.some.injEq] at hfound
  subst hfound
  exact ⟨_, List.getElem?_eq_getElem hlt, hsame⟩

theorem settled (h : world.Extends world') (hsettled : world.Settled) : world'.Settled := by
  intro index later hlater
  obtain ⟨member, hmember, -, -, hcompletion, hcancelled⟩ := h.before hlater
  rcases hsettled index member hmember with hdone | hdone
  · obtain ⟨completion, hsome⟩ := Option.isSome_iff_exists.1 hdone
    rw [hcompletion completion hsome]
    exact .inl rfl
  · exact .inr (hcancelled hdone)

theorem completed (h : world.Extends world') (hcompleted : world.Completed) : world'.Completed := by
  intro index later hlater
  obtain ⟨member, hmember, -, -, hcompletion, -⟩ := h.before hlater
  obtain ⟨completion, hsome⟩ := Option.isSome_iff_exists.1 (hcompleted index member hmember)
  rw [hcompletion completion hsome]
  rfl

end World.Extends

variable {index : Nat}

theorem extends_modify {change : Member → Member}
    (hkind : ∀ member, (change member).kind = member.kind)
    (hkey : ∀ member, (change member).key = member.key)
    (hcompletion : ∀ member, world.members[index]? = some member → ∀ completion,
      member.completion = some completion → (change member).completion = some completion)
    (hcancelled : ∀ member, member.cancelled = true → (change member).cancelled = true) :
    world.Extends { world with members := world.members.modify index change } := by
  refine ⟨⟨?_, fun _ h => h⟩, length_modify ..⟩
  intro other member hmember
  rw [getElem?_modify, hmember]
  by_cases hindex : index = other
  · subst hindex
    exact ⟨change member, by simp, hkind member, hkey member, hcompletion member hmember,
      hcancelled member⟩
  · exact ⟨member, by simp [hindex], rfl, rfl, fun _ h => h, id⟩

theorem extends_cancel (handle : Option Nat) : world.Extends (world.cancel handle) := by
  cases handle with
  | none => exact .refl world
  | some index =>
    exact extends_modify (fun _ => rfl) (fun _ => rfl) (fun _ _ _ h => h) fun _ _ => rfl

theorem extends_cancelAll (handles : List (Option Nat)) :
    world.Extends (world.cancelAll handles) := by
  induction handles generalizing world with
  | nil => exact .refl world
  | cons handle rest ih => exact (extends_cancel handle).trans ih

theorem extends_complete {completion : Completion}
    (hpending : ∀ member, world.members[index]? = some member → member.completion = none) :
    world.Extends (world.complete index completion) := by
  refine extends_modify (fun _ => rfl) (fun _ => rfl) ?_ fun _ h => h
  intro member hmember found hfound
  rw [hpending member hmember] at hfound
  cases hfound

theorem extends_accesses (accesses : List ExpertKey) :
    world.Extends { world with accesses := accesses } :=
  ⟨⟨fun _ member hmember => ⟨member, hmember, rfl, rfl, fun _ h => h, id⟩, fun _ h => h⟩, rfl⟩

theorem cancelled_cancelAll {handles : List (Option Nat)}
    (hmem : some index ∈ handles) {member : Member}
    (hmember : (world.cancelAll handles).members[index]? = some member) :
    member.cancelled = true := by
  induction handles generalizing world with
  | nil => cases hmem
  | cons handle rest ih =>
    rcases mem_cons.1 hmem with rfl | hmem
    · obtain ⟨before, hbefore, -, -, -, hcancelled⟩ :=
        (@extends_cancelAll (world.cancel (some index)) rest).before hmember
      apply hcancelled
      rw [World.cancel, getElem?_modify] at hbefore
      obtain ⟨first, -, rfl⟩ := Option.map_eq_some_iff.1 hbefore
      simp
    · exact ih hmem hmember

/-- What a poll of a batch under way does: nothing yet, or its one result. -/
inductive Polled {σ : Type} (sound : World → σ → Prop)
    (served : World → List ResolvedExpert → Prop) (world : World) :
    World × σ × Option ExpertResolveResult → Prop
  | pending {later : World} {state : σ} : world.Extends later → sound later state →
      Polled sound served world (later, state, none)
  | failed {later : World} {state : σ} {status : Status} : world.Extends later →
      status.ok = false → later.Settled → Polled sound served world (later, state, some { status })
  | succeeded {later : World} {state : σ} {experts : List ResolvedExpert} :
      world.Extends later → served later experts →
      Polled sound served world (later, state, some { status := Status.success, experts })

/-! ## Items and their acquisitions -/

namespace LocalResolveState

/-- Where a target leads in the local store. -/
def localTarget : ExpertResolveTarget → ExpertResolveTarget
  | .automatic => .device
  | target => target

/-- The acquisition behind a handle. -/
def Behind (world : World) (kind : MemberKind) (key : ExpertKey) (handle : Option Nat) : Prop :=
  ∃ index member, handle = some index ∧ world.members[index]? = some member ∧
    member.kind = kind ∧ member.key = key

/-- What an item knows, by its target. -/
inductive ItemSound (world : World) (item : Item) : Prop
  | device : item.target = .device → item.error = none → item.host = none →
      item.hostHandle = none → Behind world .device item.key item.handle →
      (∀ completion, item.result = some completion →
        world.completion item.handle = some completion ∧ item.refusal completion = none) →
      ItemSound world item
  | host : item.target = .host → item.handle = none →
      (∀ status, item.error = some status → status.ok = false) →
      (item.error = none → Behind world .host item.key item.hostHandle) →
      (∀ lease, item.host = some lease → ∃ completion,
        world.completion item.hostHandle = some completion ∧ item.refusal completion = none ∧
          completion.lease = some lease) →
      ItemSound world item
  | hostReady : item.target = .hostReady → item.handle = none → item.hostHandle = none →
      (∀ status, item.error = some status → status.ok = false) →
      (item.error = none → ∃ lease, item.host = some lease ∧ (item.key, lease) ∈ world.ready) →
      ItemSound world item

theorem Behind.later {kind : MemberKind} {key : ExpertKey} {handle : Option Nat}
    (h : Behind world kind key handle) (hlater : world.Later world') :
    Behind world' kind key handle := by
  obtain ⟨index, member, hhandle, hmember, hkind, hkey⟩ := h
  obtain ⟨later, hfound, hkind', hkey', -, -⟩ := hlater.members index member hmember
  exact ⟨index, later, hhandle, hfound, hkind'.trans hkind, hkey'.trans hkey⟩

theorem ItemSound.later {item : Item} (h : ItemSound world item)
    (hlater : world.Later world') : ItemSound world' item := by
  cases h with
  | device htarget herror hhost hnone hbehind hresult =>
    refine .device htarget herror hhost hnone (hbehind.later hlater) ?_
    intro completion hcompletion
    obtain ⟨hfound, haccepted⟩ := hresult completion hcompletion
    exact ⟨hlater.completion hfound, haccepted⟩
  | host htarget hnone hbad hbehind hhost =>
    refine .host htarget hnone hbad (fun herror => (hbehind herror).later hlater) ?_
    intro lease hlease
    obtain ⟨completion, hfound, haccepted, hgranted⟩ := hhost lease hlease
    exact ⟨completion, hlater.completion hfound, haccepted, hgranted⟩
  | hostReady htarget hnone hnone' hbad hready =>
    refine .hostReady htarget hnone hnone' hbad fun herror => ?_
    obtain ⟨lease, hhost, hgrant⟩ := hready herror
    exact ⟨lease, hhost, hlater.ready _ hgrant⟩

/-- What a poll leaves of an item. -/
structure Kept (item item' : Item) : Prop where
  key : item'.key = item.key
  target : item'.target = item.target
  handle : item'.handle = item.handle
  hostHandle : item'.hostHandle = item.hostHandle

/-- Nothing is missing for a success. -/
def Done (item : Item) : Prop :=
  item.error = none ∧ (item.target = .host → item.host.isSome = true) ∧
    (item.target = .device → item.result.isSome = true)

/-- Where the loop of a poll stops: at an error, or at a device member that failed. -/
def stops (world : World) (item : Item) : Bool :=
  item.error.isSome ||
    item.target = .device && item.result.isNone &&
      ((world.completion item.handle).bind item.refusal).isSome

variable {item : Item} {completion : Completion} {index : Nat} {key : ExpertKey}
  {items items' : List Item} {requests : List ExpertResolveRequest} {state : LocalResolveState}

theorem refusal_not_ok {status : Status}
    (h : item.refusal completion = some status) : status.ok = false := by
  rw [Item.refusal] at h
  split at h
  all_goals
    split at h
    next => cases h
    next =>
      split at h
      next =>
        cases h
        rfl
      next hfailed =>
        cases h
        exact Bool.eq_false_of_not_eq_true hfailed

theorem refusal_none (h : item.refusal completion = none) : completion.lease.isSome = true := by
  rw [Item.refusal] at h
  split at h
  all_goals
    split at h
    next haccepted => simp_all
    next => split at h <;> cases h

theorem pollItem_spec (h : ItemSound world item) :
    (∃ status, item.error = some status ∧ status.ok = false ∧
      pollItem world item = .errored status) ∨
    (item.error = none ∧ stops world item = true ∧ item.target = .device ∧
      ∃ completion status, pollItem world item =
        .failed { item with result := some completion } status ∧ status.ok = false ∧
        world.completion item.handle = some completion) ∨
    (stops world item = false ∧ ∃ item' found accesses,
      pollItem world item = .passed item' found accesses ∧ ItemSound world item' ∧
        Kept item item' ∧ (found = true → Done item')) := by
  have hkept : Kept item item := ⟨rfl, rfl, rfl, rfl⟩
  cases h with
  | device htarget herror hhost hnone hbehind hresult =>
    have hpoll : pollItem world item = pollDevice world item := by
      rw [pollItem, herror]
      simp only [htarget]
    refine .inr ?_
    rw [hpoll, pollDevice]
    by_cases hdone : item.result.isSome = true
    · rw [if_pos hdone]
      refine .inr ⟨?_, item, true, [], rfl, .device htarget herror hhost hnone hbehind hresult,
        hkept, fun _ => ⟨herror, fun hother => ?_, fun _ => hdone⟩⟩
      · obtain ⟨completion, hcompletion⟩ := Option.isSome_iff_exists.1 hdone
        simp [stops, herror, hcompletion]
      · rw [htarget] at hother
        cases hother
    · rw [if_neg hdone]
      have hpending : item.result = none := by simpa using hdone
      cases hcompletion : world.completion item.handle with
      | none =>
        refine .inr ⟨by simp [stops, herror, hcompletion], item, false, [], rfl,
          .device htarget herror hhost hnone hbehind hresult, hkept, nofun⟩
      | some completion =>
        cases hrefusal : item.refusal completion with
        | some status =>
          refine .inl ⟨herror, ?_, htarget, completion, status, by simp only [hrefusal],
            refusal_not_ok hrefusal, rfl⟩
          simp [stops, htarget, hpending, hcompletion, hrefusal]
        | none =>
          refine .inr ⟨by simp [stops, herror, hcompletion, hrefusal],
            { item with result := some completion }, true, [], by simp only [hrefusal], ?_,
            ⟨rfl, rfl, rfl, rfl⟩, fun _ => ⟨herror, fun hother => ?_, fun _ => rfl⟩⟩
          · refine .device htarget herror hhost hnone hbehind fun other hother => ?_
            cases hother
            exact ⟨hcompletion, hrefusal⟩
          · rw [show item.target = .device from htarget] at hother
            cases hother
  | host htarget hnone hbad hbehind hhost =>
    cases herror : item.error with
    | some status => exact .inl ⟨status, rfl, hbad status herror, by rw [pollItem, herror]⟩
    | none =>
      have hpoll : pollItem world item = pollHost world item := by
        rw [pollItem, herror]
        simp only [htarget]
      have hpasses : stops world item = false := by simp [stops, herror, htarget]
      refine .inr (.inr ⟨hpasses, ?_⟩)
      rw [hpoll, pollHost]
      by_cases hdone : item.host.isSome = true
      · rw [if_pos hdone]
        refine ⟨item, true, [], rfl, .host htarget hnone hbad hbehind hhost, hkept,
          fun _ => ⟨herror, fun _ => hdone, fun hother => ?_⟩⟩
        rw [htarget] at hother
        cases hother
      · rw [if_neg hdone]
        cases hcompletion : world.completion item.hostHandle with
        | none => exact ⟨item, false, [], rfl, .host htarget hnone hbad hbehind hhost, hkept, nofun⟩
        | some completion =>
          cases hrefusal : item.refusal completion with
          | some status =>
            refine ⟨{ item with error := some status }, false, [], by simp only [hrefusal], ?_,
              ⟨rfl, rfl, rfl, rfl⟩, nofun⟩
            refine .host htarget hnone ?_ (nofun) hhost
            intro other hother
            cases hother
            exact refusal_not_ok hrefusal
          | none =>
            refine ⟨{ item with host := completion.lease }, true, _,
              by simp only [hrefusal]; rfl, ?_, ⟨rfl, rfl, rfl, rfl⟩,
              fun _ => ⟨herror, fun _ => refusal_none hrefusal, fun hother => ?_⟩⟩
            · refine .host htarget hnone hbad hbehind fun lease hlease => ?_
              exact ⟨completion, hcompletion, hrefusal, hlease⟩
            · rw [show item.target = .host from htarget] at hother
              cases hother
  | hostReady htarget hnone hnone' hbad hready =>
    cases herror : item.error with
    | some status => exact .inl ⟨status, rfl, hbad status herror, by rw [pollItem, herror]⟩
    | none =>
      refine .inr (.inr ⟨by simp [stops, herror, htarget], item, true, [], ?_,
        .hostReady htarget hnone hnone' hbad hready, hkept, fun _ => ⟨herror, ?_, ?_⟩⟩)
      · rw [pollItem, herror]
        simp only [htarget]
      · intro hother
        rw [htarget] at hother
        cases hother
      · intro hother
        rw [htarget] at hother
        cases hother

theorem ItemSound.resolved (h : ItemSound world item)
    (hdevice : item.target = .device) (hhandle : item.handle = some index) :
    item.result = none ∨ (world.completion (some index)).isSome = true := by
  cases hresult : item.result with
  | none => exact .inl rfl
  | some completion =>
    cases h with
    | device _ _ _ _ _ hfound =>
      rw [← hhandle, (hfound completion hresult).1]
      exact .inr rfl
    | host htarget => simp [hdevice] at htarget
    | hostReady htarget => simp [hdevice] at htarget

/-- Every acquisition belongs to an item. -/
def Covered (world : World) (items : List Item) : Prop :=
  ∀ (index : Nat) (member : Member), world.members[index]? = some member → ∃ item ∈ items,
    member.kind = .device ∧ item.target = .device ∧ item.handle = some index ∨
      member.kind = .host ∧ item.target = .host ∧ item.hostHandle = some index

/-- A loop that stops leaves items that are kept, and cancels what its reason for
stopping tells it to. -/
inductive LoopStops (world : World) (items : List Item) :
    World × List Item × Option (Except Status Unit) → Prop
  | passed {items' : List Item} {accesses : List ExpertKey} {answer : Option (Except Status Unit)} :
      (∀ item' ∈ items', ItemSound world item') → List.Forall₂ Kept items items' →
      items.find? (stops world) = none →
      answer = none ∨ answer = some (.ok ()) ∧ (∀ item' ∈ items', Done item') →
      LoopStops world items ({ world with accesses }, items', answer)
  | errored {items' : List Item} {accesses : List ExpertKey} {status : Status} {item : Item} :
      (∀ item' ∈ items', ItemSound world item') → List.Forall₂ Kept items items' →
      items.find? (stops world) = some item → item.error = some status → status.ok = false →
      LoopStops world items (World.cancelAll { world with accesses } (items'.flatMap unresolved),
        items', some (.error status))
  | failed {items' : List Item} {accesses : List ExpertKey} {status : Status} {item : Item} :
      (∀ item' ∈ items', ∀ index, item'.target = .device → item'.handle = some index →
        item'.result = none ∨ (world.completion (some index)).isSome = true) →
      List.Forall₂ Kept items items' → items.find? (stops world) = some item →
      item.error = none → status.ok = false →
      LoopStops world items (World.cancelAll { world with accesses } (items'.flatMap unacquired),
        items', some (.error status))

theorem pollItem_accesses (accesses : List ExpertKey) (item : Item) :
    pollItem { world with accesses } item = pollItem world item := rfl

theorem pollItems_spec {before done rest : List Item} {complete : Bool}
    {accesses : List ExpertKey} (hdone : ∀ item ∈ done, ItemSound world item)
    (hkept : List.Forall₂ Kept before done) (hpassed : before.find? (stops world) = none)
    (hcomplete : complete = true → ∀ item ∈ done, Done item)
    (hrest : ∀ item ∈ rest, ItemSound world item) :
    LoopStops world (before ++ rest) (pollItems done complete { world with accesses } rest) := by
  induction rest generalizing before done complete accesses with
  | nil =>
    rw [pollItems, append_nil]
    refine .passed hdone hkept hpassed ?_
    cases complete with
    | false => exact .inl rfl
    | true => exact .inr ⟨rfl, hcomplete rfl⟩
  | cons item rest ih =>
    have hitem := hrest item mem_cons_self
    have hothers : ∀ other ∈ rest, ItemSound world other := fun other hother =>
      hrest other (mem_cons_of_mem _ hother)
    have hsame : List.Forall₂ Kept rest rest :=
      forall₂_same.2 fun _ _ => ⟨rfl, rfl, rfl, rfl⟩
    rw [pollItems, pollItem_accesses]
    rcases pollItem_spec hitem with ⟨status, herror, hbad, hpoll⟩ |
      ⟨herror, hstops, htarget, completion, status, hpoll, hbad, hfound⟩ |
      ⟨hgoes, item', found, more, hpoll, hsound, hkeeps, hfound⟩
    · rw [hpoll]
      refine @LoopStops.errored _ _ _ _ _ item ?_ ?_ ?_ herror hbad
      · intro other hother
        rcases mem_append.1 hother with hother | hother
        · exact hdone other hother
        · exact hrest other hother
      · exact rel_append hkept (List.Forall₂.cons ⟨rfl, rfl, rfl, rfl⟩ hsame)
      · rw [find?_append, hpassed, Option.none_or, find?_cons_of_pos]
        simp [stops, herror]
    · rw [hpoll]
      refine @LoopStops.failed _ _ _ _ _ item ?_ ?_ ?_ herror hbad
      · intro other hother index hdevice hhandle
        rcases mem_append.1 hother with hother | hother
        · exact (hdone other hother).resolved hdevice hhandle
        · rcases mem_cons.1 hother with rfl | hother
          · rw [show item.handle = some index from hhandle] at hfound
            rw [hfound]
            exact .inr rfl
          · exact (hothers other hother).resolved hdevice hhandle
      · exact rel_append hkept (List.Forall₂.cons ⟨rfl, rfl, rfl, rfl⟩ hsame)
      · rw [find?_append, hpassed, Option.none_or, find?_cons_of_pos hstops]
    · rw [hpoll]
      have hmore := @ih (before ++ [item]) (done ++ [item']) (complete && found)
        (accesses ++ more) ?_ ?_ ?_ ?_ hothers
      · rwa [append_assoc] at hmore
      · intro other hother
        rcases mem_append.1 hother with hother | hother
        · exact hdone other hother
        · obtain rfl : other = item' := by simpa using hother
          exact hsound
      · exact rel_append hkept (List.Forall₂.cons hkeeps .nil)
      · rw [find?_append, hpassed, Option.none_or, find?_cons_of_neg (by simp [hgoes])]
        rfl
      · intro hboth other hother
        obtain ⟨hbefore, hnow⟩ := Bool.and_eq_true_iff.1 hboth
        rcases mem_append.1 hother with hother | hother
        · exact hcomplete hbefore other hother
        · obtain rfl : other = item' := by simpa using hother
          exact hfound hnow

/-! ## Polls -/

/-- A request and the item it became. -/
def Matches (request : ExpertResolveRequest) (item : Item) : Prop :=
  item.key = request.key ∧ item.target = localTarget request.target

/-- A batch that is under way. -/
structure LocalSound (world : World) (requests : List ExpertResolveRequest)
    (state : LocalResolveState) : Prop where
  opened : state.terminal = false
  nonempty : state.items ≠ []
  sound : ∀ item ∈ state.items, ItemSound world item
  matching : List.Forall₂ Matches requests state.items
  covered : Covered world state.items

/-- A lease that an acquisition of this kind and key was granted. -/
def Granted (world : World) (kind : MemberKind) (key : ExpertKey) (lease : LeaseId) : Prop :=
  ∃ (index : Nat) (member : Member) (completion : Completion),
    world.members[index]? = some member ∧ member.kind = kind ∧
    member.key = key ∧ member.completion = some completion ∧ completion.status.ok = true ∧
    completion.lease = some lease

/-- The placement of a target and the leases it is served with. -/
inductive Serves (world : World) (key : ExpertKey) : ExpertResolveTarget → ResolvedExpert → Prop
  | device {lease : LeaseId} : Granted world .device key lease →
      Serves world key .device { key, placement := .device, deviceLease := some lease }
  | host {lease : LeaseId} : Granted world .host key lease →
      Serves world key .host { key, placement := .host, hostLease := some lease }
  | hostReady {lease : LeaseId} : (key, lease) ∈ world.ready →
      Serves world key .hostReady { key, placement := .host, hostLease := some lease }
  | remote {lease : RemoteExpertLease} : lease.identity.key = key →
      Serves world key .remote { key, placement := .remote, remoteLease := some lease }

theorem Granted.later {kind : MemberKind} {key : ExpertKey} {lease : LeaseId}
    (h : Granted world kind key lease) (hlater : world.Later world') :
    Granted world' kind key lease := by
  obtain ⟨index, member, completion, hmember, hkind, hkey, hcompletion, hok, hlease⟩ := h
  obtain ⟨later, hfound, hkind', hkey', hsame, -⟩ := hlater.members index member hmember
  exact ⟨index, later, completion, hfound, hkind'.trans hkind, hkey'.trans hkey,
    hsame completion hcompletion, hok, hlease⟩

theorem Serves.later {key : ExpertKey} {target : ExpertResolveTarget} {expert : ResolvedExpert}
    (h : Serves world key target expert) (hlater : world.Later world') :
    Serves world' key target expert := by
  cases h with
  | device hgranted => exact .device (hgranted.later hlater)
  | host hgranted => exact .host (hgranted.later hlater)
  | hostReady hgrant => exact .hostReady (hlater.ready _ hgrant)
  | remote hkey => exact .remote hkey

theorem Serves.key_eq {target : ExpertResolveTarget} {expert : ResolvedExpert}
    (h : Serves world key target expert) : expert.key = key ∧ expert.live = true := by
  cases h <;> exact ⟨rfl, rfl⟩

theorem granted_of_completion {kind : MemberKind} {handle : Option Nat}
    {lease : LeaseId} (hbehind : Behind world kind key handle)
    (hfound : world.completion handle = some completion) (hok : completion.status.ok = true)
    (hlease : completion.lease = some lease) : Granted world kind key lease := by
  obtain ⟨index, member, rfl, hmember, hkind, hkey⟩ := hbehind
  simp only [World.completion, Option.bind_some, hmember] at hfound
  exact ⟨index, member, completion, hmember, hkind, hkey, hfound, hok, hlease⟩

theorem refusal_none_ok (h : item.refusal completion = none) : completion.status.ok = true := by
  rw [Item.refusal] at h
  split at h
  all_goals
    split at h
    next haccepted => exact haccepted.1
    next => split at h <;> cases h

theorem ItemSound.serves (h : ItemSound world item) (hdone : Done item) :
    Serves world item.key item.target (LocalResolveState.resolved item) := by
  cases h with
  | device htarget herror hhost hnone hbehind hresult =>
    obtain ⟨completion, hcompletion⟩ := Option.isSome_iff_exists.1 (hdone.2.2 htarget)
    obtain ⟨hfound, hrefusal⟩ := hresult completion hcompletion
    obtain ⟨lease, hlease⟩ := Option.isSome_iff_exists.1 (refusal_none hrefusal)
    rw [LocalResolveState.resolved, if_neg (by simp [htarget]), htarget, hcompletion, Option.bind_some, hlease]
    exact .device (granted_of_completion hbehind hfound (refusal_none_ok hrefusal) hlease)
  | host htarget hnone hbad hbehind hhost =>
    obtain ⟨lease, hheld⟩ := Option.isSome_iff_exists.1 (hdone.2.1 htarget)
    obtain ⟨completion, hfound, hrefusal, hlease⟩ := hhost lease hheld
    rw [LocalResolveState.resolved, if_pos (.inr htarget), htarget, hheld]
    exact .host (granted_of_completion (hbehind hdone.1) hfound (refusal_none_ok hrefusal) hlease)
  | hostReady htarget hnone hnone' hbad hready =>
    obtain ⟨lease, hheld, hgrant⟩ := hready hdone.1
    rw [LocalResolveState.resolved, if_pos (.inl htarget), htarget, hheld]
    exact .hostReady hgrant

/-! ## What is settled -/

theorem completion_some {member : Member} (hmember : world.members[index]? = some member) :
    world.completion (some index) = member.completion := by
  simp [World.completion, hmember]

theorem settled_unresolved {items : List Item} (hsound : ∀ item ∈ items, ItemSound world item)
    (hcovered : Covered world items) : (world.cancelAll (items.flatMap unresolved)).Settled := by
  have hextends := @extends_cancelAll world (items.flatMap unresolved)
  intro index later hlater
  obtain ⟨member, hmember, -, -, hcompletion, -⟩ := hextends.before hlater
  have hready : (world.completion (some index)).isSome = true → later.completion.isSome = true := by
    intro hsome
    rw [completion_some hmember] at hsome
    obtain ⟨completion, hfound⟩ := Option.isSome_iff_exists.1 hsome
    rw [hcompletion completion hfound]
    rfl
  obtain ⟨item, hitem, ⟨-, htarget, hhandle⟩ | ⟨-, htarget, hhandle⟩⟩ := hcovered index member hmember
  · rcases (hsound item hitem).resolved htarget hhandle with hnone | hsome
    · refine .inr (cancelled_cancelAll (mem_flatMap.2 ⟨item, hitem, ?_⟩) hlater)
      simp [unresolved, htarget, hnone, hhandle]
    · exact .inl (hready hsome)
  · cases hhost : item.host with
    | none =>
      refine .inr (cancelled_cancelAll (mem_flatMap.2 ⟨item, hitem, ?_⟩) hlater)
      simp [unresolved, htarget, hhost, hhandle]
    | some lease =>
      refine .inl (hready ?_)
      cases hsound item hitem with
      | device hother => simp [htarget] at hother
      | host _ _ _ _ hfound =>
        obtain ⟨completion, hsome, -, -⟩ := hfound lease hhost
        rw [← hhandle, hsome]
        rfl
      | hostReady hother => simp [htarget] at hother

/-- The failure of a device member settles every acquisition when those of host members
have completed. -/
theorem settled_unacquired {items : List Item} (hresolved : ∀ item ∈ items, ∀ index,
      item.target = .device → item.handle = some index →
        item.result = none ∨ (world.completion (some index)).isSome = true)
    (hcovered : Covered world items) (hhosts : ∀ (index : Nat) (member : Member),
      world.members[index]? = some member → member.kind = .host →
        member.completion.isSome = true) :
    (world.cancelAll (items.flatMap unacquired)).Settled := by
  have hextends := @extends_cancelAll world (items.flatMap unacquired)
  intro index later hlater
  obtain ⟨member, hmember, -, -, hcompletion, -⟩ := hextends.before hlater
  have hready : member.completion.isSome = true → later.completion.isSome = true := by
    intro hsome
    obtain ⟨completion, hfound⟩ := Option.isSome_iff_exists.1 hsome
    rw [hcompletion completion hfound]
    rfl
  obtain ⟨item, hitem, ⟨-, htarget, hhandle⟩ | ⟨hkind, -, -⟩⟩ := hcovered index member hmember
  · rcases hresolved item hitem index htarget hhandle with hnone | hsome
    · refine .inr (cancelled_cancelAll (mem_flatMap.2 ⟨item, hitem, ?_⟩) hlater)
      simp [unacquired, hnone, hhandle]
    · rw [completion_some hmember] at hsome
      exact .inl (hready hsome)
  · exact .inl (hready (hhosts index member hmember hkind))

theorem Covered.kept (h : Covered world items)
    (hkept : List.Forall₂ Kept items items') : Covered world items' := by
  intro index member hmember
  obtain ⟨item, hitem, hbehind⟩ := h index member hmember
  obtain ⟨item', hitem', hkeeps⟩ := forall₂_mem_left hkept hitem
  refine ⟨item', hitem', ?_⟩
  rw [hkeeps.target, hkeeps.handle, hkeeps.hostHandle]
  exact hbehind

theorem Covered.extends (h : Covered world items)
    (hextends : world.Extends world') : Covered world' items := by
  intro index later hlater
  obtain ⟨member, hmember, hkind, -⟩ := hextends.before hlater
  rw [hkind]
  exact h index member hmember

theorem matching_kept
    (h : List.Forall₂ Matches requests items) (hkept : List.Forall₂ Kept items items') :
    List.Forall₂ Matches requests items' := by
  refine (forall₂_comp h hkept).imp ?_
  intro request item' hboth
  obtain ⟨item, hmatches, hkeeps⟩ := hboth
  exact ⟨hkeeps.key.trans hmatches.1, hkeeps.target.trans hmatches.2⟩

theorem completed_of_done (hsound : ∀ item ∈ items, ItemSound world item)
    (hdone : ∀ item ∈ items, Done item) (hcovered : Covered world items) : world.Completed := by
  intro index member hmember
  rw [← completion_some hmember]
  obtain ⟨item, hitem, ⟨-, htarget, hhandle⟩ | ⟨-, htarget, hhandle⟩⟩ := hcovered index member hmember
  · rcases (hsound item hitem).resolved htarget hhandle with hnone | hsome
    · have hresult := (hdone item hitem).2.2 htarget
      rw [hnone] at hresult
      cases hresult
    · exact hsome
  · obtain ⟨lease, hheld⟩ := Option.isSome_iff_exists.1 ((hdone item hitem).2.1 htarget)
    cases hsound item hitem with
    | device hother => simp [htarget] at hother
    | host _ _ _ _ hfound =>
      obtain ⟨completion, hsome, -, -⟩ := hfound lease hheld
      rw [← hhandle, hsome]
      rfl
    | hostReady hother => simp [htarget] at hother

/-- The failure of a device member, when it is what stops a poll, finds no host member
whose acquisition is still open. -/
def pollsCleanly (world : World) (state : LocalResolveState) : Bool :=
  match state.items.find? (stops world) with
  | none => true
  | some item =>
    item.error.isSome ||
      world.members.all fun member => member.kind ≠ .host || member.completion.isSome

theorem pollsCleanly_hosts
    (h : pollsCleanly world state = true) (hfind : state.items.find? (stops world) = some item)
    (herror : item.error = none) (index : Nat) (member : Member)
    (hmember : world.members[index]? = some member) (hkind : member.kind = .host) :
    member.completion.isSome = true := by
  rw [pollsCleanly, hfind] at h
  simp only [herror, Option.isSome_none, Bool.false_or, all_eq_true] at h
  simpa [hkind] using h member (mem_of_getElem? hmember)

/-- The experts of a success, in request order. -/
def Served (world : World) (requests : List ExpertResolveRequest) (experts : List ResolvedExpert) :
    Prop :=
  List.Forall₂ (fun request expert =>
    Serves world request.key (localTarget request.target) expert) requests experts

section

variable (h : LocalSound world requests state)

include h

theorem LocalSound.poll (hclean : pollsCleanly world state = true) :
    Polled (fun world => LocalSound world requests)
      (fun world experts => world.Completed ∧ Served world requests experts) world
      (state.poll world) := by
  have hloop := @pollItems_spec world [] [] state.items true world.accesses (by simp) .nil rfl
    (by simp) h.sound
  have hopen : ¬ (state.terminal = true ∨ state.items = []) := by
    simp [h.opened, h.nonempty]
  rw [LocalResolveState.poll, if_neg hopen]
  generalize pollItems [] true world state.items = outcome at hloop ⊢
  cases hloop with
  | @passed items accesses answer hsound hkept hfind hanswer =>
    have hlater : world.Extends { world with accesses } := extends_accesses accesses
    have hsound' : ∀ item ∈ items, ItemSound { world with accesses } item :=
      fun item hitem => (hsound item hitem).later hlater.toLater
    have hmatching := matching_kept h.matching hkept
    have hcovered := (h.covered.kept hkept).extends hlater
    rcases hanswer with rfl | ⟨rfl, hdone⟩
    · refine .pending hlater ⟨h.opened, ?_, hsound', hmatching, hcovered⟩
      intro hnil
      have hlength := hkept.length_eq
      rw [show items = [] from hnil] at hlength
      exact h.nonempty (length_eq_zero_iff.1 hlength)
    · refine .succeeded hlater ⟨completed_of_done hsound' hdone hcovered, ?_⟩
      rw [Served, forall₂_map_right_iff]
      refine (forall₂_mem hmatching).imp fun request item hitem => ?_
      have hserves := (hsound' item hitem.2.2).serves (hdone item hitem.2.2)
      rwa [hitem.1.1, hitem.1.2] at hserves
  | @errored items accesses status item hsound hkept hfind herror hbad =>
    have hlater : world.Extends { world with accesses } := extends_accesses accesses
    have hsettled := @settled_unresolved { world with accesses } _
      (fun item hitem => (hsound item hitem).later hlater.toLater)
      ((h.covered.kept hkept).extends hlater)
    exact .failed (hlater.trans (extends_cancelAll _)) hbad hsettled
  | @failed items accesses status item hresolved hkept hfind herror hbad =>
    have hlater : world.Extends { world with accesses } := extends_accesses accesses
    have hsettled := @settled_unacquired { world with accesses } _ hresolved
      ((h.covered.kept hkept).extends hlater)
      (pollsCleanly_hosts hclean hfind herror)
    exact .failed (hlater.trans (extends_cancelAll _)) hbad hsettled

theorem LocalSound.cancel :
    world.Extends (state.cancel world).1 ∧ (state.cancel world).1.Settled := by
  rw [LocalResolveState.cancel, if_neg (by simp [h.opened])]
  exact ⟨extends_cancelAll _, settled_unresolved h.sound h.covered⟩

theorem LocalSound.extends (hextends : world.Extends world') :
    LocalSound world' requests state where
  opened := h.opened
  nonempty := h.nonempty
  sound item hitem := (h.sound item hitem).later hextends.toLater
  matching := h.matching
  covered := h.covered.extends hextends

end

theorem Served.later {requests : List ExpertResolveRequest} {experts : List ResolvedExpert}
    (h : Served world requests experts) (hlater : world.Later world') :
    Served world' requests experts :=
  List.Forall₂.imp (fun _ _ hserves => hserves.later hlater) h

end LocalResolveState

end QuantumLlm.Runtime.ExpertStore
