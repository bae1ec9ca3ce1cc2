import QuantumLlm.Runtime.ExpertStore.Local

/-!
# Starting a local batch

The members a batch starts, the batch it becomes, and what is left behind when a
remote target gives the batch up.
-/

namespace QuantumLlm.Runtime.ExpertStore

open LocalResolveState List

namespace LocalExpertStore

variable {world : World} {request : ExpertResolveRequest} {answer : StartAnswer}
  {requests : List (ExpertResolveRequest × StartAnswer)}

/-- The acquisition that a request starts. -/
def startedMember (entry : ExpertResolveRequest × StartAnswer) : Option Member :=
  match entry.1.target with
  | .hostReady => none
  | .host =>
    if entry.2.accepted then
      some { kind := .host, key := entry.1.key, completion := entry.2.completion }
    else none
  | _ => some { kind := .device, key := entry.1.key, completion := entry.2.completion }

theorem startItem_members :
    (startItem world request answer).1.members =
      world.members ++ (startedMember (request, answer)).toList := by
  simp only [startItem, startedMember]
  cases request.target with
  | hostReady => cases answer.ready <;> simp
  | host => cases answer.accepted <;> simp [World.start]
  | device => rfl
  | remote => rfl
  | automatic => rfl

theorem startItem_later : world.Later (startItem world request answer).1 where
  members index member hmember := by
    refine ⟨member, ?_, rfl, rfl, fun _ h => h, id⟩
    rw [startItem_members, List.getElem?_append_left (List.getElem?_eq_some_iff.1 hmember).1]
    exact hmember
  ready grant hgrant := by
    simp only [startItem]
    cases request.target with
    | hostReady => cases answer.ready <;> simp [hgrant]
    | host => cases answer.accepted <;> simp [World.start, hgrant]
    | device => exact hgrant
    | remote => exact hgrant
    | automatic => exact hgrant

theorem behind_start {kind : MemberKind} {key : ExpertKey} {completion : Option Completion} :
    Behind (world.start kind key completion).1 kind key
      (some (world.start kind key completion).2) :=
  ⟨world.members.length, { kind, key, completion }, rfl,
    by simp [World.start], rfl, rfl⟩

theorem sound_device (htarget : request.target = .device ∨ request.target = .automatic) :
    ItemSound (startItem world request answer).1 (startItem world request answer).2 ∧
      Matches request (startItem world request answer).2 := by
  have hsound : ∀ options : ExpertAcquireOptions,
      ItemSound (world.start .device request.key answer.completion).1
        { key := request.key, target := .device, options
          handle := some (world.start .device request.key answer.completion).2 } :=
    fun options => .device rfl rfl rfl rfl behind_start nofun
  rcases htarget with htarget | htarget
  · simp only [startItem, htarget]
    exact ⟨hsound _, rfl, by simp [localTarget, htarget]⟩
  · simp only [startItem, htarget]
    exact ⟨hsound _, rfl, by simp [localTarget, htarget]⟩

theorem startItem_sound (hlocal : request.target ≠ .remote) :
    ItemSound (startItem world request answer).1 (startItem world request answer).2 ∧
      Matches request (startItem world request answer).2 := by
  cases htarget : request.target with
  | device => exact sound_device (.inl htarget)
  | automatic => exact sound_device (.inr htarget)
  | remote => exact absurd htarget hlocal
  | host =>
    simp only [startItem, htarget]
    cases answer.accepted with
    | true =>
      refine ⟨.host rfl rfl ?_ (fun _ => behind_start) ?_, rfl, by simp [localTarget, htarget]⟩
      · exact nofun
      · exact nofun
    | false =>
      refine ⟨.host rfl rfl ?_ ?_ ?_, rfl, by simp [localTarget, htarget]⟩
      · intro status hstatus
        cases hstatus
        rfl
      · exact nofun
      · exact nofun
  | hostReady =>
    simp only [startItem, htarget]
    cases answer.ready with
    | some lease =>
      refine ⟨.hostReady rfl rfl rfl ?_ fun _ => ⟨lease, rfl, ?_⟩, rfl,
        by simp [localTarget, htarget]⟩
      · exact nofun
      · exact mem_append_right _ mem_cons_self
    | none =>
      refine ⟨.hostReady rfl rfl rfl ?_ ?_, rfl, by simp [localTarget, htarget]⟩
      · intro status hstatus
        cases hstatus
        rfl
      · exact nofun

variable {member : Member} {entry : ExpertResolveRequest × StartAnswer}

theorem startItem_behind (hlocal : request.target ≠ .remote)
    (hmember : startedMember (request, answer) = some member) :
    member.kind = .device ∧ (startItem world request answer).2.target = .device ∧
        (startItem world request answer).2.handle = some world.members.length ∨
      member.kind = .host ∧ (startItem world request answer).2.target = .host ∧
        (startItem world request answer).2.hostHandle = some world.members.length := by
  simp only [startedMember] at hmember
  cases htarget : request.target with
  | device =>
    simp only [htarget, Option.some.injEq] at hmember
    subst hmember
    simp [startItem, htarget, World.start]
  | automatic =>
    simp only [htarget, Option.some.injEq] at hmember
    subst hmember
    simp [startItem, htarget, World.start]
  | remote => exact absurd htarget hlocal
  | host =>
    simp only [htarget] at hmember
    split at hmember
    next haccepted =>
      cases hmember
      simp [startItem, htarget, haccepted, World.start]
    next => cases hmember
  | hostReady => simp [htarget] at hmember

theorem startItem_covered (hlocal : request.target ≠ .remote) {items : List Item}
    (h : Covered world items) : Covered (startItem world request answer).1
      (items ++ [(startItem world request answer).2]) := by
  intro index member hmember
  rw [startItem_members] at hmember
  by_cases hold : index < world.members.length
  · rw [List.getElem?_append_left hold] at hmember
    obtain ⟨item, hitem, hbehind⟩ := h index member hmember
    exact ⟨item, List.mem_append_left _ hitem, hbehind⟩
  · rw [List.getElem?_append_right (Nat.le_of_not_lt hold)] at hmember
    cases hstarted : startedMember (request, answer) with
    | none => simp [hstarted] at hmember
    | some started =>
      rw [hstarted, Option.toList_some] at hmember
      obtain ⟨hlt, hsame⟩ := List.getElem?_eq_some_iff.1 hmember
      have hindex : index = world.members.length := by
        simp only [List.length_singleton] at hlt
        omega
      subst hindex
      obtain rfl : started = member := by simpa using hsame
      exact ⟨_, List.mem_append_right _ List.mem_cons_self, startItem_behind hlocal hstarted⟩

/-- By induction over the requests; the items so far stay sound while more members start. -/
theorem startItems_spec {world' : World} {before items : List Item}
    (hsound : ∀ item ∈ before, ItemSound world item) (hcovered : Covered world before)
    (h : startItems world requests = (world', some items)) :
    (∀ item ∈ before ++ items, ItemSound world' item) ∧ Covered world' (before ++ items) ∧
      List.Forall₂ Matches (requests.map (·.1)) items := by
  induction requests generalizing world before items with
  | nil =>
    obtain ⟨rfl, rfl⟩ := h
    rw [append_nil]
    exact ⟨hsound, hcovered, .nil⟩
  | cons entry rest ih =>
    rw [startItems] at h
    split at h
    next => cases h
    next hlocal =>
      obtain ⟨hworld, hitems⟩ := Prod.mk.inj h
      obtain ⟨others, hothers, rfl⟩ := Option.map_eq_some_iff.1 hitems
      obtain ⟨hitem, hmatches⟩ := @startItem_sound world _ entry.2 hlocal
      have hmore : ∀ item ∈ before ++ [(startItem world entry.1 entry.2).2],
          ItemSound (startItem world entry.1 entry.2).1 item := by
        intro item hmem
        rcases mem_append.1 hmem with hmem | hmem
        · exact (hsound item hmem).later startItem_later
        · obtain rfl := mem_singleton.1 hmem
          exact hitem
      obtain ⟨hall, hcover, hrest⟩ := ih hmore (startItem_covered hlocal hcovered)
        (Prod.ext hworld hothers)
      rw [append_assoc] at hall hcover
      exact ⟨hall, hcover, .cons hmatches hrest⟩

/-- The requests in front of the first remote target. -/
def startable (requests : List (ExpertResolveRequest × StartAnswer)) :
    List (ExpertResolveRequest × StartAnswer) :=
  requests.takeWhile fun entry => entry.1.target ≠ .remote

theorem startItems_members : (startItems world requests).1.members =
    world.members ++ (startable requests).filterMap startedMember := by
  induction requests generalizing world with
  | nil => simp [startItems, startable]
  | cons entry rest ih =>
    rw [startItems, startable]
    split
    next hremote => simp [hremote]
    next hlocal =>
      rw [takeWhile_cons_of_pos (by simpa using hlocal)]
      simp only [ih, startItem_members, startable]
      cases hstarted : startedMember entry with
      | none => simp [hstarted]
      | some member => simp [hstarted]

/-- No device acquisition in front of the first remote target is still open. -/
def leavesNothing (requests : List (ExpertResolveRequest × StartAnswer)) : Bool :=
  (startable requests).all fun entry =>
    entry.1.target = .host || entry.1.target = .hostReady || entry.2.completion.isSome

theorem startedMember_kind (h : startedMember entry = some member) :
    member.completion = entry.2.completion ∧ (member.kind = .host ↔ entry.1.target = .host) := by
  simp only [startedMember] at h
  split at h
  next => cases h
  next htarget =>
    split at h
    next =>
      cases h
      simp [htarget]
    next => cases h
  next hhost hready =>
    cases h
    simpa using hready

theorem startedMember_device
    (hhost : entry.1.target ≠ .host) (hready : entry.1.target ≠ .hostReady) :
    startedMember entry =
      some { kind := .device, key := entry.1.key, completion := entry.2.completion } := by
  rw [startedMember]
  split
  next h => exact absurd h hready
  next h => exact absurd h hhost
  next => rfl

theorem settled_abandon_iff (h : world.members = (startable requests).filterMap startedMember) :
    (abandon world).Settled ↔ leavesNothing requests = true := by
  rw [leavesNothing, all_eq_true]
  constructor
  · intro hsettled entry hentry
    by_cases hhost : entry.1.target = .host
    · simp [hhost]
    by_cases hready : entry.1.target = .hostReady
    · simp [hready]
    have hmem : { kind := .device, key := entry.1.key, completion := entry.2.completion } ∈
        world.members := by
      rw [h]
      exact mem_filterMap.2 ⟨entry, hentry, startedMember_device hhost hready⟩
    obtain ⟨index, hindex⟩ := getElem?_of_mem hmem
    have hopen := hsettled index { kind := .device, key := entry.1.key, completion := entry.2.completion }
      (by simp [abandon, hindex])
    simpa [hhost, hready] using hopen
  · intro hall index member hmember
    rw [abandon, getElem?_map] at hmember
    obtain ⟨started, hstarted, rfl⟩ := Option.map_eq_some_iff.1 hmember
    have hmem := mem_of_getElem? hstarted
    rw [h] at hmem
    obtain ⟨entry, hentry, hentryMember⟩ := mem_filterMap.1 hmem
    obtain ⟨hcompletion, hkind⟩ := startedMember_kind hentryMember
    split
    next => exact .inr rfl
    next hdevice =>
      refine .inl ?_
      rw [hcompletion]
      have hready : entry.1.target ≠ .hostReady := by
        intro hready
        simp [startedMember, hready] at hentryMember
      rw [hkind] at hdevice
      simpa [hdevice, hready] using hall entry hentry

end LocalExpertStore

end QuantumLlm.Runtime.ExpertStore
