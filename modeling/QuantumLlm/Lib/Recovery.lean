import Mathlib.Logic.Basic

/-!
# Programs that may crash

A program over a store that survives crashes: it reads the store, and changes it
in one durable write after the other. A crash keeps the store as some write has
left it and forgets the rest. `Safe` is the logic of these programs: what holds of
the store wherever a crash may come, and what holds where the program ends.
-/

namespace QuantumLlm

inductive Durable (σ ε α : Type) where
  | done (value : α)
  | throw (error : ε)
  | write (update : σ → σ) (rest : Durable σ ε α)
  | read (rest : σ → Durable σ ε α)

namespace Durable

variable {σ ε α β : Type}

def bind : Durable σ ε α → (α → Durable σ ε β) → Durable σ ε β
  | done value, next => next value
  | throw error, _ => throw error
  | write update rest, next => write update (bind rest next)
  | read rest, next => read fun state => bind (rest state) next

instance : Monad (Durable σ ε) where
  pure := done
  bind := bind

def ofExcept : Except ε α → Durable σ ε α
  | .ok value => done value
  | .error error => throw error

/-- How the program ends when nothing crashes, and the store that it leaves. -/
def run : Durable σ ε α → σ → Except ε α × σ
  | done value, state => (.ok value, state)
  | throw error, state => (.error error, state)
  | write update rest, state => run rest (update state)
  | read rest, state => run (rest state) state

/-- What a crash may leave, in the order of the writes. -/
def crashed : Durable σ ε α → σ → List σ
  | done _, state => [state]
  | throw _, state => [state]
  | write update rest, state => state :: crashed rest (update state)
  | read rest, state => crashed (rest state) state

/-- The stores that any number of crashed runs may leave. -/
inductive Crashes (program : Durable σ ε α) (start : σ → Prop) : σ → Prop where
  | start {state : σ} : start state → Crashes program start state
  | again {state state' : σ} : Crashes program start state → state' ∈ program.crashed state →
      Crashes program start state'

/-- The program gives up and writes nothing. -/
def Refuses (program : Durable σ ε α) (state : σ) : Prop :=
  (∃ error, program.run state = (.error error, state)) ∧ program.crashed state = [state]

/-- `holds` wherever a crash may come, `post` where the program is done and `fails` where it
gives up. -/
def Safe (holds : σ → Prop) (fails : ε → σ → Prop) (post : α → σ → Prop) :
    Durable σ ε α → σ → Prop
  | done value, state => holds state ∧ post value state
  | throw error, state => holds state ∧ fails error state
  | write update rest, state => holds state ∧ Safe holds fails post rest (update state)
  | read rest, state => Safe holds fails post (rest state) state

variable {holds : σ → Prop} {fails fails' : ε → σ → Prop} {post post' : α → σ → Prop}
  {program : Durable σ ε α} {state : σ}

section

variable (h : Safe holds fails post program state)

include h

theorem Safe.of_mem_crashed {state' : σ}
    (hmem : state' ∈ program.crashed state) : holds state' := by
  induction program generalizing state with
  | done value => exact List.mem_singleton.1 hmem ▸ h.1
  | throw error => exact List.mem_singleton.1 hmem ▸ h.1
  | write update rest ih =>
    rcases List.mem_cons.1 hmem with rfl | hrest
    · exact h.1
    · exact ih h.2 hrest
  | read rest ih => exact ih state h hmem

theorem Safe.of_run :
    holds (program.run state).2 ∧
      match (program.run state).1 with
      | .ok value => post value (program.run state).2
      | .error error => fails error (program.run state).2 := by
  induction program generalizing state with
  | done value => exact h
  | throw error => exact h
  | write update rest ih => exact ih h.2
  | read rest ih => exact ih state h

theorem Safe.mono (hfails : ∀ error state, fails error state → fails' error state)
    (hpost : ∀ value state, post value state → post' value state) :
    Safe holds fails' post' program state := by
  induction program generalizing state with
  | done value => exact ⟨h.1, hpost value state h.2⟩
  | throw error => exact ⟨h.1, hfails error state h.2⟩
  | write update rest ih => exact ⟨h.1, ih h.2⟩
  | read rest ih => exact ih state h

end

variable {holds' : σ → Prop} {next : α → Durable σ ε β} {result : Except ε α}

theorem Safe.weaken (h : Safe holds fails post program state)
    (hholds : ∀ state, holds state → holds' state) : Safe holds' fails post program state := by
  induction program generalizing state with
  | done value => exact ⟨hholds state h.1, h.2⟩
  | throw error => exact ⟨hholds state h.1, h.2⟩
  | write update rest ih => exact ⟨hholds state h.1, ih h.2⟩
  | read rest ih => exact ih state h

theorem Safe.bind {post : β → σ → Prop} {middle : α → σ → Prop}
    (h : Safe holds fails middle program state)
    (hnext : ∀ value state, middle value state → Safe holds fails post (next value) state) :
    Safe holds fails post (program >>= next) state := by
  induction program generalizing state with
  | done value => exact hnext value state h.2
  | throw error => exact h
  | write update rest ih => exact ⟨h.1, ih h.2⟩
  | read rest ih => exact ih state h

theorem Safe.and (h : Safe holds fails post program state)
    (h' : Safe holds' fails' post' program state) :
    Safe (fun state => holds state ∧ holds' state)
      (fun error state => fails error state ∧ fails' error state)
      (fun value state => post value state ∧ post' value state) program state := by
  induction program generalizing state with
  | done value => exact ⟨⟨h.1, h'.1⟩, h.2, h'.2⟩
  | throw error => exact ⟨⟨h.1, h'.1⟩, h.2, h'.2⟩
  | write update rest ih => exact ⟨⟨h.1, h'.1⟩, ih h.2 h'.2⟩
  | read rest ih => exact ih state h h'

theorem Safe.ofExcept (hholds : holds state) (hok : ∀ value, result = .ok value → post value state)
    (herror : ∀ error, result = .error error → fails error state) :
    Safe holds fails post (Durable.ofExcept result) state := by
  cases result with
  | ok value => exact ⟨hholds, hok value rfl⟩
  | error error => exact ⟨hholds, herror error rfl⟩

theorem Safe.bind_ofExcept {post : β → σ → Prop} (hholds : holds state)
    (hok : ∀ value, result = .ok value → Safe holds fails post (next value) state)
    (herror : ∀ error, result = .error error → fails error state) :
    Safe holds fails post (Durable.ofExcept result >>= next) state := by
  cases result with
  | ok value => exact hok value rfl
  | error error => exact ⟨hholds, herror error rfl⟩

/-- No write of the program ends the property, whatever the program has read. -/
def Keeps (holds : σ → Prop) : Durable σ ε α → Prop
  | done _ => True
  | throw _ => True
  | write update rest => (∀ state, holds state → holds (update state)) ∧ Keeps holds rest
  | read rest => ∀ state, Keeps holds (rest state)

theorem Keeps.bind (h : Keeps holds program)
    (hnext : ∀ value, Keeps holds (next value)) : Keeps holds (program >>= next) := by
  induction program with
  | done value => exact hnext value
  | throw error => trivial
  | write update rest ih => exact ⟨h.1, ih h.2⟩
  | read rest ih => exact fun state => ih state (h state)

theorem Keeps.ofExcept (result : Except ε α) :
    Keeps holds (Durable.ofExcept result : Durable σ ε α) := by
  cases result <;> trivial

theorem Keeps.safe (h : Keeps holds program) (hholds : holds state) :
    Safe holds (fun _ state => holds state) (fun _ state => holds state) program state := by
  induction program generalizing state with
  | done value => exact ⟨hholds, hholds⟩
  | throw error => exact ⟨hholds, hholds⟩
  | write update rest ih => exact ⟨hholds, ih h.2 (h.1 state hholds)⟩
  | read rest ih => exact ih state (h state) hholds

/-- The program at work on a part of a store, with its errors among others. -/
def zoom {τ ε' : Type} (view : τ → σ) (set : τ → σ → τ) (fail : ε → ε') :
    Durable σ ε α → Durable τ ε' α
  | done value => done value
  | throw error => throw (fail error)
  | write update rest => write (fun whole => set whole (update (view whole))) (zoom view set fail rest)
  | read rest => read fun whole => zoom view set fail (rest (view whole))

/-- What holds of the part while the program runs holds of the whole, and the rest stays. -/
theorem Safe.zoom {τ ε' : Type} {view : τ → σ} {set : τ → σ → τ} {fail : ε → ε'}
    (hview : ∀ whole part, view (set whole part) = part)
    (hset : ∀ whole, set whole (view whole) = whole)
    (hagain : ∀ whole part part', set (set whole part) part' = set whole part')
    {holds' : τ → Prop} {whole : τ} (h : Safe holds fails post program (view whole))
    (hholds : ∀ part, holds part → holds' (set whole part)) :
    Safe holds' (fun error whole' => ∃ error' part, error = fail error' ∧
        whole' = set whole part ∧ fails error' part)
      (fun value whole' => ∃ part, whole' = set whole part ∧ post value part)
      (program.zoom view set fail) whole := by
  induction program generalizing whole with
  | done value => exact ⟨hset whole ▸ hholds _ h.1, view whole, (hset whole).symm, h.2⟩
  | throw error => exact ⟨hset whole ▸ hholds _ h.1, error, view whole, rfl, (hset whole).symm, h.2⟩
  | write update rest ih =>
    refine ⟨hset whole ▸ hholds _ h.1, ?_⟩
    have hrest := @ih (set whole (update (view whole))) (by rw [hview]; exact h.2)
      fun part hpart => by
        rw [hagain]
        exact hholds part hpart
    simpa only [hagain] using hrest
  | read rest ih => exact ih (view whole) h hholds

theorem Crashes.invariant {start : σ → Prop} (h : Crashes program start state)
    (hstart : ∀ state, start state → holds state)
    (hcrash : ∀ state state', holds state → state' ∈ program.crashed state → holds state') :
    holds state := by
  induction h with
  | start hfirst => exact hstart _ hfirst
  | again _ hmem ih => exact hcrash _ _ ih hmem

end Durable

end QuantumLlm
