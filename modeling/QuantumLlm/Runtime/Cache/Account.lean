import QuantumLlm.Runtime.Cache.Requests
import Mathlib.Algebra.Group.Basic

/-!
# Expert cache: byte accounts

Each counter is meant to be the sum of one charge over the entries. The drift of
a counter is what it holds beyond that sum; the helpers of the lock sections never
move it, except where a reservation is topped up in another class or a device copy
arrives under a reference.
-/

namespace QuantumLlm.Runtime

inductive Account where
  | ram
  | ramClass (protectedClass : Bool)
  | ramPartition (partition : Nat)
  | vram
  | vramClass (resident : Bool)
  | vramPartition (partition : Nat)
  | referencedEntries
  | referencedBytes
  | referencedTransientBytes
  deriving DecidableEq, Repr

/-- The accounts of the referenced device copies. -/
def Account.referenced : Account → Bool
  | .referencedEntries | .referencedBytes | .referencedTransientBytes => true
  | _ => false

def Counters.balance (counters : Counters) : Account → UInt64
  | .ram => counters.ramBytes
  | .ramClass true => counters.ramProtectedBytes
  | .ramClass false => counters.ramProbationaryBytes
  | .ramPartition partition => counters.ramPartitionBytes partition
  | .vram => counters.vramBytes
  | .vramClass true => counters.vramResidentBytes
  | .vramClass false => counters.vramTransientBytes
  | .vramPartition partition => counters.vramPartitionBytes partition
  | .referencedEntries => counters.vramReferencedEntries
  | .referencedBytes => counters.vramReferencedBytes
  | .referencedTransientBytes => counters.vramTransientReferencedBytes

/-- A device copy that somebody holds a reference to. -/
def Entry.referenced (entry : Entry) : Bool :=
  entry.references ≠ 0 && entry.device.isSome

/-- What an entry in partition `home` owes to an account. -/
def Entry.charge (entry : Entry) (home : Nat) : Account → UInt64
  | .ram => entry.ramReserved
  | .ramClass protectedClass => if entry.ramProtected = protectedClass then entry.ramReserved else 0
  | .ramPartition partition => if home = partition then entry.ramReserved else 0
  | .vram => entry.vramReserved
  | .vramClass resident => if entry.vramResident = resident then entry.vramReserved else 0
  | .vramPartition partition =>
    if entry.vramResident ∧ home = partition then entry.vramReserved else 0
  | .referencedEntries => if entry.referenced then 1 else 0
  | .referencedBytes => if entry.referenced then entry.vramReserved else 0
  | .referencedTransientBytes =>
    if entry.referenced ∧ entry.vramResident = false then entry.vramReserved else 0

namespace Core

def total (core : Core) (account : Account) : UInt64 :=
  core.entries.sum fun key entry => entry.charge (core.partitionFor key) account

def drift (core : Core) (account : Account) : UInt64 :=
  core.counters.balance account - core.total account

section

variable {core core' : Core} {key : ExpertKey} {account : Account}

section

variable (hkey : key ∈ core.entries.keys) (hkeys : core'.entries.keys = core.entries.keys)
  (hplacement : core'.config.placement = core.config.placement)
  (hothers : ∀ other, other ≠ key → core'.entry other = core.entry other)

include hkey hkeys hplacement hothers

theorem drift_of_exchange (hbalance : core'.counters.balance account +
        (core.entry key).charge (core.partitionFor key) account =
      core.counters.balance account +
        (core'.entry key).charge (core.partitionFor key) account) :
    core'.drift account = core.drift account := by
  have hpartition : core'.partitionFor = core.partitionFor := by
    funext other
    simp only [partitionFor, hplacement]
  have hexchange : core'.total account + (core.entry key).charge (core.partitionFor key) account =
      core.total account + (core'.entry key).charge (core.partitionFor key) account := by
    simp only [total, hpartition]
    exact Table.sum_exchange hkey hkeys hothers
  rw [drift, drift, eq_sub_of_add_eq hbalance, eq_sub_of_add_eq hexchange]
  abel

theorem drift_of_charge_eq
    (hcounters : core'.counters.balance account = core.counters.balance account)
    (hcharge : (core'.entry key).charge (core.partitionFor key) account =
      (core.entry key).charge (core.partitionFor key) account) :
    core'.drift account = core.drift account := by
  refine drift_of_exchange hkey hkeys hplacement hothers ?_
  rw [hcounters, hcharge]

end

end

end Core

end QuantumLlm.Runtime
