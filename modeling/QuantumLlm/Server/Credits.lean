import QuantumLlm.Lib.Tally
import QuantumLlm.Server.Requests

/-!
# What each request owes

The page credits a request has taken and not yet paid back or handed over, the
session keys it may still store under, and what one turn does to both.
-/

namespace QuantumLlm.Server

open List

variable {config : Config} {app app' : App config} {thread thread' : Thread config}

def pagesOf (sessions : List (Session config)) : Nat := (sessions.map (·.pages)).sum

def keysOf (sessions : List (Session config)) : List Nat := sessions.map (·.key)

@[simp] theorem pagesOf_nil : pagesOf ([] : List (Session config)) = 0 := rfl

@[simp] theorem pagesOf_cons (session : Session config) (rest : List (Session config)) :
    pagesOf (session :: rest) = session.pages + pagesOf rest := by
  simp [pagesOf]

@[simp] theorem pagesOf_append (left right : List (Session config)) :
    pagesOf (left ++ right) = pagesOf left + pagesOf right := by
  simp [pagesOf]

theorem pagesOf_filter (sessions : List (Session config)) (keep : Session config → Bool) :
    pagesOf (sessions.filter keep) + pagesOf (sessions.filter fun session => !keep session) =
      pagesOf sessions := by
  induction sessions with
  | nil => rfl
  | cons session rest ih =>
    rw [pagesOf_cons, ← ih]
    cases h : keep session with
    | true =>
      rw [filter_cons_of_pos h, filter_cons_of_neg (by simp [h]), pagesOf_cons]
      omega
    | false =>
      rw [filter_cons_of_neg (by simp [h]), filter_cons_of_pos (by simp [h]), pagesOf_cons]
      omega

def RequestContext.owed (context : RequestContext config) : Nat :=
  if context.retained then 0 else context.heldPages

/-- The credits a request has in hand, what it has popped apart. -/
def Phase.owed : Phase config → Nat
  | .loading session => session.pages
  | .running context _ | .resizing context _ _ | .starved context _ _ | .keying context _ _ _ _ _
  | .parking context _ _ _ _ _ _ | .storing context _ | .releasing context => context.owed
  | _ => 0

def Thread.owed (thread : Thread config) : Nat := pagesOf thread.popped + thread.phase.owed

/-- The held pages of the context while it is live and not retained. -/
def Phase.held : Phase config → Nat
  | .running context _ | .resizing context _ _ | .starved context _ _ | .keying context _ _ _ _ _
  | .parking context _ _ _ _ _ _ | .storing context _ | .releasing context
  | .stored context _ _ | .persisting context _ | .cleaning context => context.owed
  | _ => 0

/-- Not between two steps of a transfer of credits. -/
def Thread.atRest (thread : Thread config) : Bool :=
  thread.popped.isEmpty &&
    match thread.phase with
    | .loading _ => false
    | _ => true

def Resize.keys (session : Option (Session config)) : Resize config → List Nat
  | .parking _ _ _ _ => (session.map (·.key)).toList
  | .storing kept => [kept.key]

/-- The key a request may store its session under. -/
def Phase.keys : Phase config → List Nat
  | .running _ session | .keying _ session _ _ _ _ => (session.map (·.key)).toList
  | .resizing _ session next | .starved _ session next => next.keys session
  | .parking _ _ _ _ _ _ key => [key]
  | .storing _ kept => [kept.key]
  | _ => []

/-- How the pages of the context have ended. -/
def Phase.Disposed : Phase config → List Disposal → Prop
  | .stored context _ _, disposals => disposals = [.handedOver context.heldPages]
  | .persisting context _, disposals | .cleaning context, disposals =>
    disposals = [.handedOver context.heldPages]
  | .releasing context, disposals =>
    disposals = if context.retained then [.handedOver context.heldPages] else []
  | .returning context, disposals =>
    disposals = if 0 < context.heldPages then [.released context.heldPages] else []
  | .finished (some context), disposals =>
    disposals = if context.retained then [.handedOver context.heldPages]
      else if 0 < context.heldPages then [.released context.heldPages] else []
  | .raised, _ => False
  | _, disposals => disposals = []

/-- What is true of a context where the request is. -/
def Phase.Sound : Phase config → Prop
  | .running context session => context.retained = false ∧
      ∀ held, session = some held → context.heldPages = held.pages
  | .resizing context _ _ | .starved context _ _ | .keying context _ _ _ _ _
  | .parking context _ _ _ _ _ _ => context.retained = false
  | .storing context kept => context.retained = false ∧ context.heldPages = kept.pages
  | .stored context _ _ => context.retained = false
  | .persisting context _ | .cleaning context => context.retained = true
  | .returning context => context.retained = false
  | _ => True

structure Thread.Sound (thread : Thread config) : Prop where
  phase : thread.phase.Sound
  disposed : thread.phase.Disposed thread.disposals
  /-- While duplicates of a stored session are dropped, each has the pages of the context. -/
  duplicated : ∀ context session persist, thread.phase = .stored context session persist →
    thread.popped ≠ [] ∧ ∀ popped ∈ thread.popped, popped.pages = context.heldPages

structure AppSound (app : App config) : Prop where
  resident : ∀ session ∈ app.sessions, session.resident = true
  durable : ∀ entry ∈ app.diskSessions, entry.2.resident = false

/-- Keys are moved, forgotten or fresh. -/
def KeysMoved (app app' : App config) (phase phase' : Phase config) : Prop :=
  ∃ fresh : List Nat,
    (fresh = [] ∧ app'.nextSessionKey = app.nextSessionKey ∨
      fresh = [app.nextSessionKey] ∧ app'.nextSessionKey = app.nextSessionKey + 1) ∧
    (keysOf app'.sessions ++ phase'.keys).Subperm (fresh ++ (keysOf app.sessions ++ phase.keys))

/-- What one turn leaves as it was: the credits add up. -/
structure Turned (app app' : App config) (thread thread' : Thread config) : Prop where
  ledger : app'.kvReservedPages + pagesOf app.sessions + thread.owed =
    app.kvReservedPages + pagesOf app'.sessions + thread'.owed
  capacity : app.kvReservedPages ≤ config.sessionPageCapacity →
    app'.kvReservedPages ≤ config.sessionPageCapacity
  keys : KeysMoved app app' thread.phase thread'.phase
  app : AppSound app'
  thread : thread'.Sound

variable {pages : Nat} {session : Session config} {prompt : List Nat} {signature : Signature}
  {sessions : List (Session config)}

theorem acquirePages_some (h : app.acquirePages pages = some app') :
    app'.kvReservedPages = app.kvReservedPages + pages ∧
      app'.kvReservedPages ≤ config.sessionPageCapacity ∧ app'.sessions = app.sessions ∧
      app'.diskSessions = app.diskSessions ∧ app'.nextSessionKey = app.nextSessionKey := by
  rw [App.acquirePages] at h
  split at h
  next => cases h
  next hfits =>
    cases h
    exact ⟨rfl, Nat.le_of_not_lt hfits, rfl, rfl, rfl⟩

theorem releaseContextCredits_some (hpos : 0 < pages)
    (hle : pages ≤ app.kvReservedPages) : app.releaseContextCredits pages =
      some { app with kvReservedPages := app.kvReservedPages - pages } := by
  rw [App.releaseContextCredits, if_neg]
  omega

theorem evictLruSession_some (h : app.evictLruSession = some (app', session)) :
    app.sessions = session :: app'.sessions ∧ app'.kvReservedPages = app.kvReservedPages ∧
      app'.diskSessions = app.diskSessions ∧ app'.nextSessionKey = app.nextSessionKey := by
  rw [App.evictLruSession] at h
  split at h
  next => cases h
  next first rest hsessions =>
    cases h
    exact ⟨hsessions, rfl, rfl, rfl⟩

theorem bestResident_mem {best : Option (Session config)}
    (h : App.bestResident prompt signature best sessions = some session) :
    best = some session ∨ session ∈ sessions := by
  induction sessions generalizing best with
  | nil => exact .inl h
  | cons first rest ih =>
    rcases ih h with hbest | hmem
    · split at hbest
      next =>
        cases hbest
        exact .inr mem_cons_self
      next => exact .inl hbest
    · exact .inr (mem_cons_of_mem _ hmem)

theorem bestDurable_mem {best found : Option (Session config) × Option String}
    {entries : List (String × Session config)}
    (h : App.bestDurable prompt signature best entries = found) :
    found = best ∨ ∃ entry ∈ entries, found = (some entry.2, some entry.1) := by
  induction entries generalizing best with
  | nil => exact .inl h.symm
  | cons first rest ih =>
    rcases ih h with hbest | ⟨entry, hentry, hfound⟩
    · split at hbest
      next => exact .inr ⟨first, mem_cons_self, hbest⟩
      next => exact .inl hbest
    · exact .inr ⟨entry, mem_cons_of_mem _ hentry, hfound⟩

theorem removeSession_perm (hnodup : (keysOf sessions).Nodup) (hmem : session ∈ sessions) :
    sessions.Perm (session :: App.removeSession sessions session.key) := by
  obtain ⟨first, before, after, -, hkey, hsessions, herased⟩ :=
    @exists_of_eraseP _ (fun other => decide (other.key = session.key)) _ _ hmem (by simp)
  have hfirst : first ∈ sessions := by
    rw [hsessions]
    exact mem_append_right _ mem_cons_self
  have hsame : first = session :=
    inj_on_of_nodup_map hnodup hfirst hmem (of_decide_eq_true hkey)
  rw [App.removeSession, herased, ← hsame]
  conv => lhs; rw [hsessions]
  exact perm_middle

theorem pagesOf_perm {left right : List (Session config)} (h : left.Perm right) :
    pagesOf left = pagesOf right := (h.map _).sum_eq

theorem checkoutSession_cases (hsound : AppSound app) (hnodup : (keysOf app.sessions).Nodup)
    (prompt : List Nat) (signature : Signature) :
    app.checkoutSession prompt signature = (app, none) ∨
      (∃ session sessions, app.checkoutSession prompt signature =
          ({ app with sessions }, some session) ∧ session.resident = true ∧
        app.sessions.Perm (session :: sessions)) ∨
      ∃ session diskSessions, app.checkoutSession prompt signature =
          ({ app with diskSessions }, some session) ∧ session.resident = false ∧
        ∀ entry ∈ diskSessions, entry ∈ app.diskSessions := by
  rw [App.checkoutSession]
  generalize hresident : App.bestResident prompt signature none app.sessions = resident
  generalize hbest : (if config.sessionCacheEnabled then
      App.bestDurable prompt signature (resident, none) app.diskSessions
    else (resident, none)) = best
  have hfound : best = (resident, none) ∨
      ∃ entry ∈ app.diskSessions, best = (some entry.2, some entry.1) := by
    split at hbest
    next => exact bestDurable_mem hbest
    next => exact .inl hbest.symm
  rcases hfound with rfl | ⟨entry, hentry, rfl⟩
  · cases resident with
    | none => exact .inl rfl
    | some session =>
      have hmem : session ∈ app.sessions := by
        rcases bestResident_mem hresident with hnone | hmem
        · cases hnone
        · exact hmem
      have hheld := hsound.resident session hmem
      exact .inr (.inl ⟨session, _, if_pos hheld, hheld, removeSession_perm hnodup hmem⟩)
  · have hdurable := hsound.durable entry hentry
    refine .inr (.inr ⟨entry.2, App.removeDurable app.diskSessions entry.1, ?_, hdurable, ?_⟩)
    · simp [hdurable]
    · exact fun other hother => (mem_filter.1 hother).1

end QuantumLlm.Server
