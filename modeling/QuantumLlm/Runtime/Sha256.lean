import QuantumLlm.Lib.Wire
import QuantumLlm.Runtime.Storage

/-!
# Digest-terminated bytes

Wire frames and census files end with the SHA-256 digest of everything before
it. The digest function itself is a parameter.
-/

namespace QuantumLlm.Runtime

def kDigestBytes : Nat := 32

theorem Sha256Digest.ext_bytes {left right : Sha256Digest} (h : left.bytes = right.bytes) :
    left = right := by
  cases left
  cases h
  rfl

def nonzeroDigest (digest : Sha256Digest) : Bool := digest.bytes.any (· ≠ 0)

def digestOfBytes (bytes : Bytes) : Sha256Digest :=
  if h : bytes.length = 32 then ⟨bytes, h⟩ else ⟨List.replicate 32 0, zeroBytes_length⟩

theorem digestOfBytes_bytes {bytes : Bytes} (h : bytes.length = 32) :
    (digestOfBytes bytes).bytes = bytes := by
  rw [digestOfBytes, dif_pos h]

@[simp] theorem digestOfBytes_digest (digest : Sha256Digest) : digestOfBytes digest.bytes = digest :=
  Sha256Digest.ext_bytes (digestOfBytes_bytes digest.length_eq)

def takeDigest : Reader Sha256Digest := digestOfBytes <$> takeBytes 32

theorem reads_digest : Reads takeDigest (·.bytes) fun _ => True := by
  apply (reads_takeBytes 32).map
  · intro bytes hbytes
    exact ⟨digestOfBytes_bytes hbytes, trivial⟩
  · intro digest _
    exact ⟨digestOfBytes_digest digest, digest.length_eq⟩

@[simp] theorem takeDigest_put (digest : Sha256Digest) (rest : Bytes) :
    takeDigest.run (digest.bytes ++ rest) = some (digest, rest) := reads_digest.run_append trivial

variable (sha256 : Bytes → Sha256Digest)

/-- The bytes followed by their digest. -/
def sealed (payload : Bytes) : Bytes := payload ++ (sha256 payload).bytes

def payloadOf (frame : Bytes) : Bytes := frame.take (frame.length - kDigestBytes)

def claimedOf (frame : Bytes) : Sha256Digest :=
  digestOfBytes (frame.drop (frame.length - kDigestBytes))

/-- The trailing digest is the one of the payload. -/
def Authentic (frame : Bytes) : Prop := sha256 (payloadOf frame) = claimedOf frame

instance (frame : Bytes) : Decidable (Authentic sha256 frame) := inferInstanceAs (Decidable (_ = _))

variable {sha256} {payload frame : Bytes}

@[simp] theorem sealed_length : (sealed sha256 payload).length = payload.length + 32 := by
  rw [sealed, List.length_append, (sha256 payload).length_eq]

@[simp] theorem payloadOf_sealed : payloadOf (sealed sha256 payload) = payload := by
  rw [payloadOf, sealed_length, kDigestBytes, Nat.add_sub_cancel, sealed, List.take_left]

@[simp] theorem claimedOf_sealed : claimedOf (sealed sha256 payload) = sha256 payload := by
  rw [claimedOf, sealed_length, kDigestBytes, Nat.add_sub_cancel, sealed, List.drop_left,
    digestOfBytes_digest]

theorem authentic_sealed : Authentic sha256 (sealed sha256 payload) := by
  rw [Authentic, payloadOf_sealed, claimedOf_sealed]

theorem eq_sealed (hlong : 32 ≤ frame.length) (h : Authentic sha256 frame) :
    frame = sealed sha256 (payloadOf frame) := by
  have hlast : (frame.drop (frame.length - kDigestBytes)).length = 32 := by
    rw [List.length_drop, kDigestBytes]
    omega
  have hclaimed := digestOfBytes_bytes hlast
  rw [sealed, h, claimedOf, hclaimed, payloadOf, List.take_append_drop]

end QuantumLlm.Runtime
