import QuantumLlm.Server.Durable.Directory

/-!
# Requests over durable sessions

One request from its checkout to the end of `_persist_session` and the cleanup,
one file operation or one section under the lock at a time, and any number of
requests that take turns, with evictions and crashes between them. Which session
a prompt matches, and what expires, is up to the actions.
-/

namespace QuantumLlm.Server.Durable

/-- Where a request is. A `context` is the session of its context, a `source` the local variable
of `generate`. -/
inductive Phase where
  | arriving
  /-- A durable session is checked out, and loaded or given back. -/
  | loading (copy : Nat)
  | declined (copy : Nat)
  | generating (context source : Option Nat)
  /-- The session is stored; `_persist_session` comes next. -/
  | persisting (stored : Nat) (source : Option Nat)
  | saving (stored : Nat) (persistentId : String) (generation : Nat)
      (live written : List String)
  | saved (stored : Nat) (persistentId : String) (generation : Nat)
  | committed (stored : Nat) (persistentId : String) (generation : Nat)
  | pruning (stored : Nat) (persistentId : String) (generation : Nat) (live : List String)
  | pruned (stored : Nat) (persistentId : String) (generation : Nat)
  | assigned (persistentId : String) (generation : Nat)
  | cleaning
  /-- These directories are removed. -/
  | removing (removed : List (String × Nat))
  | returning (context : Option Nat)
  | finished
  deriving DecidableEq

inductive Choice where
  | go
  | fresh
  | resident (copy : Nat)
  | durable (persistentId : String)
  | load (ok : Bool)
  | resumeFailed
  | preserved (duplicates : List Nat)
  | retain (duplicates : List Nat)
  | fail
  /-- A new id, the clock, and the blobs of the state. -/
  | save (uuid : String) (now : Nat) (live : List String)
  | writeBlob (name : String)
  | writeManifest
  | writeIndex
  | prune
  | removeManifest (generation : Nat)
  | removeBlob (name : String)
  | removeIndex
  | cleanup (removed : List String)
  deriving DecidableEq

namespace Phase

/-- One turn of a request. -/
def step (store : Store) (phase : Phase) (choice : Choice) : Option (Store × Phase) :=
  match phase, choice with
  | .arriving, .fresh => some (store, .generating none none)
  | .arriving, .resident copy =>
    if copy ∈ store.sessions then
      some ({ store with sessions := store.sessions.erase copy }, .generating copy copy)
    else none
  | .arriving, .durable persistentId =>
    match store.diskSessions.find? (·.1 = persistentId) with
    | none => none
    | some entry => some (store.removeEntry persistentId, .loading entry.2)
  | .loading copy, .load ok =>
    some (store, if ok && store.loads copy then .generating copy copy else .declined copy)
  | .declined copy, .go => some (store.returnDiskSession copy, .generating none none)
  | .generating context (some _), .resumeFailed => some (store, .generating context none)
  | .generating _ (some source), .preserved duplicates =>
    some (store.storeSession source duplicates, .finished)
  | .generating _ source, .retain duplicates =>
    some (store.storeSession source duplicates, .persisting store.nextCopy source)
  | .generating context _, .fail => some (store, .returning context)
  | .persisting stored source, .save uuid now live =>
    let previous := source.elim {} store.copies
    some (store, .saving stored (previous.persistentId.getD uuid)
      (max (previous.snapshotGeneration + 1) now) live [])
  | .saving stored persistentId generation live written, .writeBlob name =>
    some (store.withSnapshots persistentId
        ((store.directories persistentId).snapshots.writeBlob name),
      .saving stored persistentId generation live (written ++ [name]))
  | .saving stored persistentId generation live written, .writeManifest =>
    if live ⊆ written then
      some (store.withSnapshots persistentId
          ((store.directories persistentId).snapshots.writeManifest generation live),
        .saved stored persistentId generation)
    else none
  | .saved stored persistentId generation, .writeIndex =>
    some (store.commit persistentId generation, .committed stored persistentId generation)
  -- The worker refuses, or the state does not match: logged, the session stays in the map.
  | .persisting _ _, .fail | .saving _ _ _ _ _, .fail | .saved _ _ _, .fail =>
    some (store, .finished)
  | .committed stored persistentId generation, .prune =>
    match (store.directories persistentId).snapshots.manifest generation with
    | none => some (store, .pruned stored persistentId generation)
    | some live => some (store, .pruning stored persistentId generation live)
  | .committed stored persistentId generation, .fail =>
    some (store, .pruned stored persistentId generation)
  | .pruning stored persistentId generation live, .removeManifest other =>
    if other ≠ generation then
      some (store.withSnapshots persistentId
          ((store.directories persistentId).snapshots.removeManifest other),
        .pruning stored persistentId generation live)
    else none
  | .pruning stored persistentId generation live, .removeBlob name =>
    if name ∉ live then
      some (store.withSnapshots persistentId
          ((store.directories persistentId).snapshots.removeBlob name),
        .pruning stored persistentId generation live)
    else none
  | .pruning stored persistentId generation _, .go =>
    some (store, .pruned stored persistentId generation)
  | .pruned stored persistentId generation, .go =>
    some (store.assign stored
        { persistentId := some persistentId, snapshotGeneration := generation },
      .assigned persistentId generation)
  | .assigned persistentId generation, .go =>
    some (store.publish persistentId generation, .cleaning)
  | .cleaning, .cleanup removed =>
    some (store.cleanupPersistentSessions removed, .removing (store.expired removed))
  | .removing ((persistentId, generation) :: rest), .removeIndex =>
    some (store.withDirectory persistentId { store.directories persistentId with index := none },
      .removing ((persistentId, generation) :: rest))
  | .removing ((persistentId, generation) :: rest), .removeManifest other =>
    some (store.withSnapshots persistentId
        ((store.directories persistentId).snapshots.removeManifest other),
      .removing ((persistentId, generation) :: rest))
  | .removing ((persistentId, generation) :: rest), .removeBlob name =>
    some (store.withSnapshots persistentId
        ((store.directories persistentId).snapshots.removeBlob name),
      .removing ((persistentId, generation) :: rest))
  | .removing (_ :: rest), .go => some (store, .removing rest)
  | .removing [], .go => some (store, .finished)
  | .returning none, .go => some (store, .finished)
  | .returning (some copy), .go => some (store.returnDiskSession copy, .finished)
  | _, _ => none

/-- Between the begin of a SAVE into this directory and the commit. -/
def savesInto (persistentId : String) : Phase → Bool
  | .saving _ other _ _ _ | .saved _ other _ => other = persistentId
  | _ => false

def hasSaved (persistentId : String) (generation : Nat) : Phase → Bool
  | .saved _ other kept => other = persistentId && kept = generation
  | _ => false

/-- The session names the generation of its `session.json`. -/
def isCommitted (store : Store) (copy : Nat) : Bool :=
  (store.copies copy).persistentId.all fun persistentId =>
    (store.directories persistentId).index = some (store.generationOf copy)

/-- What each operation on a directory takes for granted about the other requests. -/
def undisturbed (store : Store) (others : List Phase) : Phase → Choice → Bool
  | .declined copy, .go | .returning (some copy), .go => isCommitted store copy
  | .saving _ persistentId generation _ _, .writeManifest =>
    store.latest persistentId < generation &&
      others.all fun other => !other.hasSaved persistentId generation
  | .saved _ persistentId generation, .writeIndex => store.latest persistentId < generation
  | .pruning _ persistentId generation _, .removeManifest _
  | .pruning _ persistentId generation _, .removeBlob _ =>
    (store.directories persistentId).index = some generation &&
      (store.diskSessions.all fun entry =>
        entry.1 ≠ persistentId || store.generationOf entry.2 = generation) &&
      others.all fun other => !other.savesInto persistentId
  | .pruned stored persistentId generation, .go =>
    (store.diskSessions.all fun entry => entry.2 ≠ stored) ||
      (store.directories persistentId).index = some generation
  | .assigned persistentId generation, .go =>
    (store.directories persistentId).index = some generation
  | .removing ((persistentId, generation) :: _), .removeIndex =>
    store.latest persistentId ≤ generation
  | .removing ((persistentId, _) :: _), .removeManifest _
  | .removing ((persistentId, _) :: _), .removeBlob _ =>
    (store.directories persistentId).index = none &&
      (store.diskSessions.all fun entry => entry.1 ≠ persistentId) &&
      others.all fun other => !other.savesInto persistentId
  | _, _ => true

end Phase

abbrev Service := Interleaved Store Phase

inductive Action where
  | arrive
  /-- A session leaves the map: evicted, expired or a duplicate. -/
  | evict (copy : Nat)
  | turn (index : Nat) (choice : Choice)
  /-- The process dies and starts again. -/
  | crash (listed : List String)
  deriving DecidableEq

namespace Service

def start : Service where
  shared := {}
  threads := []

def step (service : Service) : Action → Option Service
  | .arrive => some { service with threads := service.threads ++ [.arriving] }
  | .evict copy =>
    some { service with
      shared := { service.shared with sessions := service.shared.sessions.erase copy } }
  | .turn index choice => service.turn Phase.step index choice
  | .crash listed =>
    some { shared := service.shared.files.loadPersistentSessions listed, threads := [.cleaning] }

/-- Every operation finds the directory as its request left it. -/
def undisturbed (service : Service) : Action → Bool
  | .turn index choice =>
    service.threads[index]?.all fun phase =>
      phase.undisturbed service.shared (service.threads.eraseIdx index) choice
  | _ => true

end Service

end QuantumLlm.Server.Durable
