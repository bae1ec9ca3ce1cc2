import QuantumLlm.Lib.Generations
import QuantumLlm.Lib.Interleaving
import QuantumLlm.Lib.Run

/-!
# Durable sessions

The directories of the session cache, the index over them and the session
objects, with the sections of the server that run under its lock.
-/

namespace QuantumLlm.Server.Durable

/-- The directory of one persistent id. `index` is the generation that `session.json` names. -/
structure Directory where
  snapshots : Generations Nat String := Generations.empty
  index : Option Nat := none

/-- What persistence reads and writes of a session object. -/
structure Copy where
  persistentId : Option String := none
  snapshotGeneration : Nat := 0
  deriving DecidableEq

/-- The server and its files. Sessions are objects that the map, the index and requests share. -/
structure Store where
  copies : Nat → Copy := fun _ => {}
  nextCopy : Nat := 0
  sessions : List Nat := []
  /-- `disk_sessions`. -/
  diskSessions : List (String × Nat) := []
  directories : String → Directory := fun _ => {}
  /-- History: the newest generation whose `session.json` was written. -/
  latest : String → Nat := fun _ => 0
  /-- History: the generations that cleanups took out of the index. -/
  evicted : List (String × Nat) := []

namespace Store

variable (store : Store)

def generationOf (copy : Nat) : Nat := (store.copies copy).snapshotGeneration

/-- LOAD of a session object. -/
def loads (copy : Nat) : Bool :=
  (store.copies copy).persistentId.any fun persistentId =>
    (store.directories persistentId).snapshots.loadable (store.generationOf copy)

def allocate (copy : Copy) : Store :=
  { store with
    copies := fun other => if other = store.nextCopy then copy else store.copies other
    nextCopy := store.nextCopy + 1 }

def assign (copy : Nat) (value : Copy) : Store :=
  { store with copies := fun other => if other = copy then value else store.copies other }

def removeEntry (persistentId : String) : Store :=
  { store with diskSessions := store.diskSessions.filter (·.1 ≠ persistentId) }

/-- An assignment to a key of the index, after a `pop` of it. -/
def putEntry (persistentId : String) (copy : Nat) : Store :=
  { store with
    diskSessions := store.diskSessions.filter (·.1 ≠ persistentId) ++ [(persistentId, copy)] }

/-- `_return_disk_session`. -/
def returnDiskSession (copy : Nat) : Store :=
  match (store.copies copy).persistentId with
  | none => store
  | some persistentId => store.putEntry persistentId copy

/-- The locked part of `store_session`: an object made from the source takes the place of its
duplicates. -/
def storeSession (source : Option Nat) (duplicates : List Nat) : Store :=
  let store := store.allocate (source.elim {} store.copies)
  { store with
    sessions := store.sessions.filter (· ∉ duplicates) ++ [store.nextCopy - 1] }

/-- The end of `_persist_session`: a durable object takes the place of the entry. -/
def publish (persistentId : String) (generation : Nat) : Store :=
  let copy : Copy := { persistentId := some persistentId, snapshotGeneration := generation }
  (store.allocate copy).putEntry persistentId store.nextCopy

/-- The ids of the sessions in the map. -/
def liveIds : List String := store.sessions.filterMap fun copy => (store.copies copy).persistentId

/-- The entries that `_cleanup_persistent_sessions` pops: expired or over the budget, and none of
the map's. -/
def expired (removed : List String) : List (String × Nat) :=
  (store.diskSessions.filter fun entry => entry.1 ∈ removed ∧ entry.1 ∉ store.liveIds).map
    fun entry => (entry.1, store.generationOf entry.2)

def cleanupPersistentSessions (removed : List String) : Store :=
  { store with
    diskSessions := store.diskSessions.filter fun entry =>
      ¬ (entry.1 ∈ removed ∧ entry.1 ∉ store.liveIds)
    evicted := store.evicted ++ store.expired removed }

def withDirectory (persistentId : String) (directory : Directory) : Store :=
  { store with
    directories := fun other =>
      if other = persistentId then directory else store.directories other }

def withSnapshots (persistentId : String) (snapshots : Generations Nat String) : Store :=
  store.withDirectory persistentId
    { store.directories persistentId with snapshots }

/-- `_write_json_atomic` of `session.json`. -/
def commit (persistentId : String) (generation : Nat) : Store :=
  { store.withDirectory persistentId
      { store.directories persistentId with index := some generation } with
    latest := fun other =>
      if other = persistentId then max (store.latest other) generation else store.latest other }

/-- `_load_persistent_sessions`, over the directories in this order: those without a
`session.json` are removed. -/
def loadPersistentSessions (store : Store) : List String → Store
  | [] => store
  | persistentId :: rest =>
    match (store.directories persistentId).index with
    | none => (store.withDirectory persistentId {}).loadPersistentSessions rest
    | some generation => (store.publish persistentId generation).loadPersistentSessions rest

/-- What a crash leaves. -/
def files : Store where
  directories := store.directories
  latest := store.latest
  evicted := store.evicted

end Store

end QuantumLlm.Server.Durable
