import QuantumLlm.Lib.Interleaving
import QuantumLlm.Lib.Run
import QuantumLlm.Server.Sessions

/-!
# Requests

The path of one request through admission, generation, retention and release,
one section under a lock at a time, and any number of requests that take turns.
-/

namespace QuantumLlm.Server

variable {config : Config}

/-- What a resize of a context comes before: the retaining END, or the store. -/
inductive Resize (config : Config) where
  | parking (visible : List Nat) (signature : Signature) (checkpoint : Nat) (exact : Bool)
  | storing (stored : Session config)

/-- The pages the resize is for. -/
def Resize.target : Resize config → Nat
  | .parking _ _ checkpoint _ => config.contextPages checkpoint
  | .storing stored => stored.pages

/-- Where a request is. A `session` next to a context is the local variable of `generate`. -/
inductive Phase (config : Config) where
  | sweeping (prompt : List Nat) (signature : Signature)
  | checking (prompt : List Nat) (signature : Signature)
  /-- A durable session waits for pages; there were none before `crowded`. -/
  | admitting (session : Session config)
  | crowded (session : Session config)
  /-- The worker loads it. -/
  | loading (session : Session config)
  /-- It could not be loaded. -/
  | declined (session : Session config)
  | running (context : RequestContext config) (session : Option (Session config))
  | resizing (context : RequestContext config) (session : Option (Session config))
      (next : Resize config)
  | starved (context : RequestContext config) (session : Option (Session config))
      (next : Resize config)
  | keying (context : RequestContext config) (session : Option (Session config))
      (visible : List Nat) (signature : Signature) (checkpoint : Nat) (exact : Bool)
  | parking (context : RequestContext config) (session : Option (Session config))
      (visible : List Nat) (signature : Signature) (checkpoint : Nat) (exact : Bool) (key : Nat)
  | storing (context : RequestContext config) (stored : Session config)
  /-- The map has the session; whether it is persisted afterwards. -/
  | stored (context : RequestContext config) (session : Session config) (persist : Bool)
  | persisting (context : RequestContext config) (session : Session config)
  | cleaning (context : RequestContext config)
  | releasing (context : RequestContext config)
  /-- The credits are back, the session of the context is dropped. -/
  | returning (context : RequestContext config)
  /-- The request is over, and its context if it had one. -/
  | finished (context : Option (RequestContext config))
  /-- A release of credits raised. -/
  | raised

/-- How the pages of a context end. -/
inductive Disposal where
  | released (pages : Nat)
  | handedOver (pages : Nat)
  deriving DecidableEq

structure Thread (config : Config) where
  phase : Phase config
  /-- Sessions taken out of the map, to be dropped and paid back before anything else. -/
  popped : List (Session config) := []
  disposals : List Disposal := []

/-- How a DROP of the worker ends: answered or refused, or with an error that is not the
worker's, such as a broken pipe. -/
inductive Drop where
  | dropped
  | broken
  deriving DecidableEq

inductive Choice where
  | go
  | sweep (cutoff : Nat)
  | drop (outcome : Drop)
  | load (ok : Bool)
  /-- A capacity error of the worker, or of the credits. -/
  | evict
  | resumeFailed
  | preserved (now : Nat)
  | retain (visible : List Nat) (signature : Signature) (checkpoint : Nat) (exact : Bool)
  | ended (retainedTokens parkedPages parkedBytes : Nat)
  | store (now : Nat)
  | persist (written : Option (String × Nat))
  | cleanup (removed : List String)
  | fail
  deriving DecidableEq

namespace Thread

/-- Goes on, once nothing popped is left to drop. -/
def settle (thread : Thread config) : Thread config :=
  match thread.popped, thread.phase with
  | [], .stored context session persist =>
    let context := { context with retained := true }
    { thread with
      phase := if persist then .persisting context session else .releasing context }
  | _, _ => thread

/-- Where an error that is not the worker's leads. What was popped is forgotten. -/
def abort (thread : Thread config) : Thread config :=
  { thread with
    popped := []
    phase :=
      match thread.phase with
      | .running context _ | .resizing context _ _ | .starved context _ _
      | .keying context _ _ _ _ _ | .parking context _ _ _ _ _ _ | .storing context _
      | .stored context _ _ | .persisting context _ | .cleaning context | .releasing context =>
        .releasing context
      | _ => .finished none }

/-- A lock section of `evict_lru_session`, and the way on when there is no session. -/
def evict (app : App config) (thread : Thread config) (next otherwise : Phase config) :
    App config × Thread config :=
  match app.evictLruSession with
  | none => (app, { thread with phase := otherwise })
  | some (app, session) => (app, { thread with popped := [session], phase := next })

/-- The way on after a resize. -/
def resized (context : RequestContext config) (session : Option (Session config))
    (next : Resize config) : Phase config :=
  let context := { context with heldPages := next.target }
  match next with
  | .parking visible signature checkpoint exact =>
    .keying context session visible signature checkpoint exact
  | .storing stored => .storing context stored

/-- `resize_request_context`, up to its eviction. -/
def resize (app : App config) (thread : Thread config) (context : RequestContext config)
    (session : Option (Session config)) (next : Resize config) : App config × Thread config :=
  if next.target < context.heldPages then
    match app.releaseContextCredits (context.heldPages - next.target) with
    | none => (app, { thread with phase := .raised })
    | some app => (app, { thread with phase := resized context session next })
  else if next.target - context.heldPages = 0 then
    (app, { thread with phase := resized context session next })
  else
    match app.acquirePages (next.target - context.heldPages) with
    | none => (app, { thread with phase := .starved context session next })
    | some app => (app, { thread with phase := resized context session next })

/-- The locked part of `store_session`; the duplicates are dropped next. -/
def store (app : App config) (thread : Thread config) (context : RequestContext config)
    (source : Session config) (now : Nat) (persist : Bool) : App config × Thread config :=
  let stored : Session config := { source with lastUsed := now, resident := true }
  (app.storeSession stored,
    ({ phase := .stored context stored persist
       popped := app.duplicates stored
       disposals := thread.disposals ++ [.handedOver stored.pages] } : Thread config).settle)

/-- What the worker answers to a retaining END. -/
def ended (thread : Thread config) (context : RequestContext config)
    (session : Option (Session config)) (visible : List Nat) (signature : Signature)
    (checkpoint : Nat) (exact : Bool) (key retainedTokens parkedPages parkedBytes : Nat) :
    Thread config :=
  if h : 0 < retainedTokens ∧ retainedTokens ≤ visible.length then
    if exact ∧ retainedTokens ≠ checkpoint then { thread with phase := .releasing context }
    else if parkedPages ≠ 0 ∧ parkedPages ≠ config.contextPages retainedTokens then
      { thread with phase := .releasing context }
    else
      { thread with
        phase := .resizing context session (.storing
          { key
            tokens := visible.take retainedTokens
            pages := config.contextPages retainedTokens
            lastUsed := 0
            mediaSignature := signature
            parkedBytes
            persistentId := session.bind (·.persistentId)
            snapshotGeneration := (session.map (·.snapshotGeneration)).getD 0
            pages_eq := by rw [List.length_take, Nat.min_eq_left h.2]
            tokens_pos := by rw [List.length_take, Nat.min_eq_left h.2]; exact h.1 }) }
  else { thread with phase := .releasing context }

/-- One turn of a request. -/
def step (app : App config) (thread : Thread config) (choice : Choice) :
    Option (App config × Thread config) :=
  match thread.popped with
  | session :: rest =>
    match choice with
    | .drop .dropped =>
      match app.releaseContextCredits session.pages with
      | none => some (app, { thread with popped := [], phase := .raised })
      | some app => some (app, ({ thread with popped := rest } : Thread config).settle)
    | .drop .broken => some (app, thread.abort)
    | _ => none
  | [] =>
    match thread.phase, choice with
    | .sweeping prompt signature, .sweep cutoff =>
      if config.retentionEnabled then
        let swept := app.sweepIdleSessions cutoff
        some (swept.1,
          { thread with popped := swept.2, phase := .checking prompt signature })
      else
        some (app, { thread with phase := .running { session := none, heldPages := 0 } none })
    | .checking prompt signature, .go =>
      let checked := app.checkoutSession prompt signature
      some (checked.1,
        match checked.2 with
        | none => { thread with phase := .running { session := none, heldPages := 0 } none }
        | some session =>
          if session.resident then
            { thread with
              phase := .running { session, heldPages := session.pages } session }
          else { thread with phase := .admitting session })
    | .admitting session, .go =>
      match app.acquirePages session.pages with
      | none => some (app, { thread with phase := .crowded session })
      | some app => some (app, { thread with phase := .loading session })
    | .crowded session, .evict => some (evict app thread (.admitting session) (.declined session))
    | .loading session, .load ok =>
      let allocated := app.allocateSessionKey
      if ok then
        let session : Session config :=
          { session with key := allocated.2, resident := true }
        some (allocated.1,
          { thread with phase := .running { session, heldPages := session.pages } session })
      else
        match allocated.1.releaseContextCredits session.pages with
        | none => some (allocated.1, { thread with phase := .raised })
        | some app => some (app, { thread with phase := .declined session })
    | .declined session, .go =>
      some (app.returnDiskSession session,
        { thread with phase := .running { session := none, heldPages := 0 } none })
    | .running context session, .evict =>
      some (evict app thread (.running context session) (.releasing context))
    | .running context (some _), .resumeFailed =>
      some (app, { thread with phase := .running context none })
    | .running context (some session), .preserved now =>
      some (store app thread context session now false)
    | .running context session, .retain visible signature checkpoint exact =>
      if ¬ config.retentionEnabled then none
      else if 0 < checkpoint ∧ checkpoint ≤ visible.length then
        some (app,
          { thread with
            phase := .resizing context session
              (.parking visible signature checkpoint exact) })
      else some (app, { thread with phase := .releasing context })
    | .running context _, .fail => some (app, { thread with phase := .releasing context })
    | .resizing context session next, .go => some (resize app thread context session next)
    | .starved context session next, .evict =>
      some (evict app thread (.resizing context session next) (.releasing context))
    | .keying context session visible signature checkpoint exact, .go =>
      match session with
      | some held =>
        some (app,
          { thread with
            phase := .parking context session visible signature checkpoint exact held.key })
      | none =>
        let allocated := app.allocateSessionKey
        some (allocated.1,
          { thread with
            phase := .parking context session visible signature checkpoint exact
              allocated.2 })
    | .parking context session visible signature checkpoint exact key, .evict =>
      some (evict app thread
        (.parking context session visible signature checkpoint exact key)
        (.releasing context))
    | .parking context _ _ _ _ _ _, .fail => some (app, { thread with phase := .releasing context })
    | .parking context session visible signature checkpoint exact key,
        .ended retainedTokens parkedPages parkedBytes =>
        some (app, ended thread context session visible signature checkpoint exact key
          retainedTokens parkedPages parkedBytes)
    | .storing context stored, .store now => some (store app thread context stored now true)
    | .persisting context session, .persist written =>
      match written with
      | none => some (app, { thread with phase := .releasing context })
      | some (persistentId, generation) =>
        some (app.publishDurable session persistentId generation,
          { thread with phase := .cleaning context })
    | .cleaning context, .cleanup removed =>
      some (app.cleanupPersistentSessions removed,
        { thread with phase := .releasing context })
    | .releasing context, .go =>
      if context.retained then some (app, { thread with phase := .finished context })
      else if 0 < context.heldPages then
        match app.releaseContextCredits context.heldPages with
        | none => some (app, { thread with phase := .raised })
        | some app =>
          some (app,
            { thread with
              phase := .returning context
              disposals := thread.disposals ++ [.released context.heldPages] })
      else some (app, { thread with phase := .returning context })
    | .returning context, .drop outcome =>
      match context.session, outcome with
      | some session, .dropped =>
        some (app.returnDiskSession session, { thread with phase := .finished context })
      | _, _ => some (app, { thread with phase := .finished context })
    | _, _ => none

end Thread

abbrev Service (config : Config) := Interleaved (App config) (Thread config)

inductive Action where
  | arrive (prompt : List Nat) (signature : Signature)
  | turn (index : Nat) (choice : Choice)
  deriving DecidableEq

namespace Service

/-- After the index has been loaded. -/
def start (diskSessions : List (String × Session config)) : Service config where
  shared :=
    { diskSessions := diskSessions.map fun entry =>
        (entry.1, { entry.2 with key := 0, resident := false }) }
  threads := []

def step (service : Service config) : Action → Option (Service config)
  | .arrive prompt signature =>
    some { service with
      threads := service.threads ++ [{ phase := .sweeping prompt signature }] }
  | .turn index choice => service.turn Thread.step index choice

end Service

end QuantumLlm.Server
