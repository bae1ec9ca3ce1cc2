import QuantumLlm.Runtime.ActiveExpert.Wire

/-!
# Deadlines on the wire

A deadline travels as the nanoseconds that are left of it, and becomes a deadline again
on the clock of the receiver. The clamp of a budget leaves the clock out of account.
-/

namespace QuantumLlm.Runtime.ActiveExpert

variable {now deadline : Int} {budget : UInt64}

/-- The clock and the clamped budget have a sum in ticks. -/
def AddsUp (now : Int) (budget : UInt64) : Prop :=
  budget = unlimitedBudget ∨ now + min (budget.toNat : Int) (2 ^ 63 - 1) ≤ deadlineMax

/-- What the receiver of a budget relies on at a time. -/
structure Transports (now : Int) (budget : UInt64) : Prop where
  addsUp : AddsUp now budget
  later : now < decodeDeadline now budget
  accepted : ∀ (sha256 : Bytes → Sha256Digest) (frame : Bytes) (fields : RequestFields)
    (rest : Bytes) (status : Status), readRequestFields.run (payloadOf frame) = some (fields, rest) →
    fields.budget = budget → decodeActiveExpertRequest sha256 now now frame = .error status →
    status.code ≠ .deadlineExceeded

theorem decodeDeadline_eq (hnow : 0 ≤ now) (hbudget : budget ≠ unlimitedBudget)
    (h : now + min (budget.toNat : Int) (2 ^ 63 - 1) ≤ deadlineMax) :
    decodeDeadline now budget = now + min (budget.toNat : Int) (2 ^ 63 - 1) := by
  rw [deadlineMax] at h
  rw [decodeDeadline, if_neg hbudget]
  apply Int.bmod_eq_of_le
  · omega
  · omega

theorem validateIdentity_code {identity : ActiveExpertIdentity} :
    (validateIdentity identity).code ≠ .deadlineExceeded := by
  unfold validateIdentity
  split
  · exact ErrorCode.noConfusion
  · exact ErrorCode.noConfusion

theorem validateInvocation_code {invocation : ActiveExpertInvocation}
    (h : now < invocation.deadline) :
    (validateInvocation now invocation).code ≠ .deadlineExceeded := by
  unfold validateInvocation
  split
  · exact ErrorCode.noConfusion
  · rw [if_neg fun hexpired => absurd hexpired.2 (not_le.2 h)]
    exact ErrorCode.noConfusion

theorem decode_not_expired {sha256 : Bytes → Sha256Digest} {frame rest : Bytes}
    {fields : RequestFields} {status : Status} (hbudget : fields.budget ≠ 0)
    (hlater : now < decodeDeadline now fields.budget)
    (hfields : readRequestFields.run (payloadOf frame) = some (fields, rest))
    (h : decodeActiveExpertRequest sha256 now now frame = .error status) :
    status.code ≠ .deadlineExceeded := by
  have hinvocation := @validateInvocation_code now
    (fields.request (decodeDeadline now fields.budget) (rest.take fields.inputBytes.toNat)).invocation
    hlater
  unfold decodeActiveExpertRequest at h
  simp only [hfields, hbudget, if_false, or_false] at h
  split at h
  · cases h
    exact ErrorCode.noConfusion
  · split at h
    · cases h
      exact ErrorCode.noConfusion
    · split at h
      · cases h
        exact ErrorCode.noConfusion
      · split at h
        · cases h
          exact validateIdentity_code
        · split at h
          · cases h
            exact hinvocation
          · cases h

/-- A budget is unlimited, or ends within the ticks of the clock. At the first tick the clamp is
enough. -/
def WithinTicks (now : Int) (budget : UInt64) : Prop :=
  (budget = unlimitedBudget ∧ now < deadlineMax) ∨ now + budget.toNat ≤ deadlineMax ∨ now = 0

theorem transports_iff (hnow : 0 ≤ now) (hpositive : budget ≠ 0) :
    Transports now budget ↔ WithinTicks now budget := by
  have htotal : budget.toNat ≠ 0 := fun hzero => hpositive (UInt64.toNat_inj.1 hzero)
  constructor
  · rintro ⟨hadds, hlater, -⟩
    by_cases hunlimited : budget = unlimitedBudget
    · rw [hunlimited, decodeDeadline, if_pos rfl] at hlater
      exact .inl ⟨hunlimited, hlater⟩
    · right
      have hsum := hadds.resolve_left hunlimited
      rw [deadlineMax] at hsum ⊢
      omega
  · intro h
    have hsum : budget ≠ unlimitedBudget →
        now + min (budget.toNat : Int) (2 ^ 63 - 1) ≤ deadlineMax := by
      intro hlimited
      rcases h with ⟨hunlimited, -⟩ | hwithin | hzero
      · exact absurd hunlimited hlimited
      · omega
      · rw [hzero, deadlineMax]
        omega
    have hlater : now < decodeDeadline now budget := by
      by_cases hunlimited : budget = unlimitedBudget
      · rw [decodeDeadline, if_pos hunlimited]
        rcases h with ⟨-, hbefore⟩ | hwithin | hzero
        · exact hbefore
        · omega
        · rw [hzero]
          decide
      · rw [decodeDeadline_eq hnow hunlimited (hsum hunlimited)]
        omega
    refine ⟨?_, hlater, ?_⟩
    · by_cases hunlimited : budget = unlimitedBudget
      · exact .inl hunlimited
      · exact .inr (hsum hunlimited)
    · rintro sha256 frame fields rest status hfields rfl h
      exact decode_not_expired hpositive hlater hfields h

theorem decodeDeadline_budget (hnow : 0 ≤ now) (hlater : now < deadline)
    (hfinite : deadline < deadlineMax) :
    decodeDeadline now (deadlineBudget now deadline) = deadline := by
  rw [deadlineMax] at hfinite
  have hbudget : deadlineBudget now deadline = UInt64.ofNat (deadline - now).toNat := by
    rw [deadlineBudget, deadlineMax, if_neg (by omega), if_neg (by omega)]
  have hnat : (UInt64.ofNat (deadline - now).toNat).toNat = (deadline - now).toNat := by
    rw [UInt64.toNat_ofNat', Nat.mod_eq_of_lt (by omega)]
  have hlimited : UInt64.ofNat (deadline - now).toNat ≠ unlimitedBudget := by
    intro heq
    have htop := congrArg UInt64.toNat heq
    rw [hnat, show unlimitedBudget.toNat = 2 ^ 64 - 1 from rfl] at htop
    omega
  have hsum : now + min (((deadline - now).toNat : Nat) : Int) (2 ^ 63 - 1) = deadline := by omega
  rw [hbudget, decodeDeadline_eq hnow hlimited, hnat, hsum]
  rw [hnat, hsum, deadlineMax]
  omega

/-- When budgets are transported, and that deadlines are. -/
theorem deadline_transport (now : Int) (hnow : 0 ≤ now) :
    (∀ budget : UInt64, budget ≠ 0 → (Transports now budget ↔ WithinTicks now budget)) ∧
    (∀ deadline, now < deadline → deadline < deadlineMax →
      decodeDeadline now (deadlineBudget now deadline) = deadline) ∧
    decodeDeadline now (deadlineBudget now deadlineMax) = deadlineMax :=
  ⟨fun _ hpositive => transports_iff hnow hpositive,
    fun _ hlater hfinite => decodeDeadline_budget hnow hlater hfinite, rfl⟩

theorem deadline_transport_zero : decodeDeadline 0 (deadlineBudget 0 5) = 5 :=
  (deadline_transport 0 (le_refl 0)).2.1 5 (by decide) (by decide)

/-- The largest budget but one is added to any clock but the first tick with an overflow. -/
theorem transport_overflows :
    ¬ ∀ now : Int, 0 ≤ now → now ≤ deadlineMax → ∀ budget : UInt64, budget ≠ 0 →
      Transports now budget := by
  intro h
  have hsum := (h 1 (by decide) (by decide) 0xfffffffffffffffe (by decide)).addsUp
  rcases hsum with hunlimited | hsum
  · exact absurd hunlimited (by decide)
  · exact absurd hsum (by decide)

end QuantumLlm.Runtime.ActiveExpert
