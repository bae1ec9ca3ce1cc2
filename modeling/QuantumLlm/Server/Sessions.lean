import Mathlib.Data.List.Basic
import Mathlib.Tactic.Ring

/-!
# Retained sessions and page credits

The session map, the index of durable sessions and the page credits of the
server, with the sections that run under its locks.
-/

namespace QuantumLlm.Server

structure Config where
  kvPageTokens : Nat
  kvPageTokens_pos : 0 < kvPageTokens
  /-- `_session_page_capacity`. -/
  sessionPageCapacity : Nat
  /-- `retention_enabled`. -/
  retentionEnabled : Bool := true
  sessionCacheEnabled : Bool := true

/-- `_context_pages`. -/
def Config.contextPages (config : Config) (contextTokens : Nat) : Nat :=
  (contextTokens + config.kvPageTokens - 1) / config.kvPageTokens

theorem Config.contextPages_pos (config : Config) {tokens : Nat} (h : 0 < tokens) :
    0 < config.contextPages tokens := by
  have hpage := config.kvPageTokens_pos
  exact Nat.div_pos (by omega) hpage

abbrev Signature := Option (List UInt8)

/-- A retained worker-side conversation prefix. -/
structure Session (config : Config) where
  key : Nat
  tokens : List Nat
  pages : Nat
  lastUsed : Nat
  mediaSignature : Signature := none
  parkedBytes : Nat := 0
  persistentId : Option String := none
  snapshotGeneration : Nat := 0
  resident : Bool := true
  /-- Its pages are those of its tokens. -/
  pages_eq : pages = config.contextPages tokens.length
  tokens_pos : 0 < tokens.length

variable {config : Config}

theorem Session.pages_pos (session : Session config) : 0 < session.pages := by
  rw [session.pages_eq]
  exact config.contextPages_pos session.tokens_pos

/-- Admission state owned by one request while it generates. -/
structure RequestContext (config : Config) where
  session : Option (Session config)
  heldPages : Nat
  retained : Bool := false

structure App (config : Config) where
  kvReservedPages : Nat := 0
  /-- In the order of insertion. -/
  sessions : List (Session config) := []
  diskSessions : List (String × Session config) := []
  nextSessionKey : Nat := 1

namespace App

def acquirePages (app : App config) (pages : Nat) : Option (App config) :=
  if app.kvReservedPages + pages > config.sessionPageCapacity then none
  else some { app with kvReservedPages := app.kvReservedPages + pages }

/-- `none` when it raises. -/
def releaseContextCredits (app : App config) (pages : Nat) : Option (App config) :=
  if pages = 0 ∨ pages > app.kvReservedPages then none
  else some { app with kvReservedPages := app.kvReservedPages - pages }

/-- The locked part of `_sweep_idle_sessions`. -/
def sweepIdleSessions (app : App config) (cutoff : Nat) : App config × List (Session config) :=
  ({ app with sessions := app.sessions.filter fun session => ¬ session.lastUsed < cutoff },
    app.sessions.filter fun session => session.lastUsed < cutoff)

/-- The locked part of `evict_lru_session`. -/
def evictLruSession (app : App config) : Option (App config × Session config) :=
  match app.sessions with
  | [] => none
  | session :: rest => some ({ app with sessions := rest }, session)

/-- A session whose tokens start the prompt. -/
def startsPrompt (prompt : List Nat) (signature : Signature) (session : Session config) : Bool :=
  session.tokens.length ≤ prompt.length && prompt.take session.tokens.length = session.tokens &&
    session.mediaSignature = signature

def longer (session : Session config) (best : Option (Session config)) : Bool :=
  best.all fun best => session.tokens.length > best.tokens.length

/-- The longest matching session of the map. -/
def bestResident (prompt : List Nat) (signature : Signature) (best : Option (Session config)) :
    List (Session config) → Option (Session config)
  | [] => best
  | session :: rest =>
    bestResident prompt signature
      (if startsPrompt prompt signature session && longer session best then some session else best)
      rest

/-- A longer one of the index, with its id. -/
def bestDurable (prompt : List Nat) (signature : Signature)
    (best : Option (Session config) × Option String) :
    List (String × Session config) → Option (Session config) × Option String
  | [] => best
  | (persistentId, session) :: rest =>
    bestDurable prompt signature
      (if startsPrompt prompt signature session && longer session best.1 then
        (some session, some persistentId)
      else best) rest

def removeSession (sessions : List (Session config)) (key : Nat) : List (Session config) :=
  sessions.eraseP (·.key = key)

def removeDurable (entries : List (String × Session config)) (persistentId : String) :
    List (String × Session config) :=
  entries.filter (·.1 ≠ persistentId)

/-- The locked part of `checkout_session`. -/
def checkoutSession (app : App config) (prompt : List Nat) (signature : Signature) :
    App config × Option (Session config) :=
  let resident := bestResident prompt signature none app.sessions
  let best := if config.sessionCacheEnabled then
      bestDurable prompt signature (resident, none) app.diskSessions
    else (resident, none)
  match best with
  | (none, _) => (app, none)
  | (some session, persistentId) =>
    if session.resident then
      ({ app with sessions := removeSession app.sessions session.key }, some session)
    else
      match persistentId with
      | none => (app, some session)
      | some persistentId =>
        ({ app with diskSessions := removeDurable app.diskSessions persistentId },
          some session)

/-- The sessions with the same tokens and media. -/
def duplicates (app : App config) (stored : Session config) : List (Session config) :=
  app.sessions.filter fun session =>
    session.tokens = stored.tokens && session.mediaSignature = stored.mediaSignature

/-- An assignment to a key of the map. -/
def assign (sessions : List (Session config)) (stored : Session config) : List (Session config) :=
  if sessions.any (·.key = stored.key) then
    sessions.map fun session => if session.key = stored.key then stored else session
  else sessions ++ [stored]

/-- The locked part of `store_session`. -/
def storeSession (app : App config) (stored : Session config) : App config :=
  { app with
    sessions := assign (app.sessions.filter fun session =>
      ¬ (session.tokens = stored.tokens && session.mediaSignature = stored.mediaSignature)) stored }

/-- `_return_disk_session`. -/
def returnDiskSession (app : App config) (session : Session config) : App config :=
  match session.persistentId with
  | none => app
  | some persistentId =>
    { app with
      diskSessions := removeDurable app.diskSessions persistentId ++
        [(persistentId, { session with key := 0, resident := false })] }

def allocateSessionKey (app : App config) : App config × Nat :=
  ({ app with nextSessionKey := app.nextSessionKey + 1 }, app.nextSessionKey)

/-- What `_persist_session` publishes: the ids of the stored session, and its durable copy. -/
def publishDurable (app : App config) (stored : Session config) (persistentId : String)
    (generation : Nat) : App config :=
  { app with
    sessions := app.sessions.map fun session =>
      if session.key = stored.key then
        { session with persistentId := some persistentId, snapshotGeneration := generation }
      else session
    diskSessions := removeDurable app.diskSessions persistentId ++
      [(persistentId, { stored with
        key := 0, resident := false, persistentId := some persistentId
        snapshotGeneration := generation })] }

/-- The locked part of `_cleanup_persistent_sessions`: these entries are expired or over the
budget, and no session of the map has their ids. -/
def cleanupPersistentSessions (app : App config) (removed : List String) : App config :=
  { app with
    diskSessions := app.diskSessions.filter fun entry =>
      ¬ (entry.1 ∈ removed ∧ ∀ session ∈ app.sessions, session.persistentId ≠ some entry.1) }

end App

end QuantumLlm.Server
