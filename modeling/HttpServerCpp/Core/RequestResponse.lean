import HttpServerCpp.Core.Transition

/-!
# Serial request and response

The protocol of one party that reads requests and answers them one at a time over one stream,
seen through what it does to the stream: it starts a read, a request arrives or the read ends, the
request is dispatched, the write of the response to a request starts and ends.  `Phase.next` is
that protocol as an automaton on observations, with no reference to how a party implements it.

* `Phase.tally` and `run_tally` count: in every accepted sequence completed writes, started
  writes, dispatches, requests and started reads form a chain that grows by at most one over its
  whole length.
* `run_answers`: the responses answer request 1, 2, 3 and so on.
* `completed_of_readStarted`: when a read starts, every earlier response has been written.
* `nothing_after_final`: a read that ended, a failed write and a write after which the stream is
  not kept open are the last thing seen.
-/

namespace HttpServer

/-- What can be seen on the stream. -/
inductive Obs where
  | readStarted
  | requestRead
  | readEnded
  | dispatched
  | writeStarted (number : Nat)
  | writeEnded (ok kept : Bool)
deriving DecidableEq

/-- Where the protocol stands after `n` requests were answered in full. -/
inductive Phase where
  | reading (n : Nat)
  | processing (n : Nat)
  | awaiting (n : Nat)
  | writing (n : Nat)
  | written (n : Nat)
  | closed
deriving DecidableEq

namespace Phase

/-- One observation. -/
def next : Phase → Obs → Option Phase
  | written n, .readStarted => some (reading n)
  | reading n, .requestRead => some (processing n)
  | reading _, .readEnded => some closed
  | processing n, .dispatched => some (awaiting n)
  | awaiting n, .writeStarted number => if number = n + 1 then some (writing n) else none
  | writing n, .writeEnded ok kept => some (if ok && kept then written (n + 1) else closed)
  | _, _ => none

/-- The protocol as a transition system. -/
def protocol : LTS Phase Obs := ⟨next⟩

/-- A write that completed without an error. -/
def completes : Obs → Bool
  | .writeEnded ok _ => ok
  | _ => false

def started (os : List Obs) : Nat := os.countP (· = .readStarted)
def arrived (os : List Obs) : Nat := os.countP (· = .requestRead)
def dispatches (os : List Obs) : Nat := os.countP (· = .dispatched)
def completed (os : List Obs) : Nat := os.countP completes

/-- The number a response is given when its write starts. -/
def answer : Obs → Option Nat
  | .writeStarted number => some number
  | _ => none

def answers (os : List Obs) : List Nat := os.filterMap answer
def answered (os : List Obs) : Nat := (answers os).length

section Snoc

variable (os : List Obs) (o : Obs)

@[simp] lemma started_snoc :
    started (os ++ [o]) = started os + if o = .readStarted then 1 else 0 := by
  simp [started, List.countP_singleton]

@[simp] lemma arrived_snoc :
    arrived (os ++ [o]) = arrived os + if o = .requestRead then 1 else 0 := by
  simp [arrived, List.countP_singleton]

@[simp] lemma dispatches_snoc :
    dispatches (os ++ [o]) = dispatches os + if o = .dispatched then 1 else 0 := by
  simp [dispatches, List.countP_singleton]

lemma answers_snoc : answers (os ++ [o]) = answers os ++ (answer o).toList := by
  cases h : answer o <;> simp [answers, h]

@[simp] lemma answered_snoc :
    answered (os ++ [o]) = answered os + (answer o).toList.length := by
  rw [answered, answers_snoc, List.length_append, answered]

@[simp] lemma completed_snoc :
    completed (os ++ [o]) = completed os + if completes o then 1 else 0 := by
  simp [completed, List.countP_singleton]

end Snoc

/-- Each count is at most the one after it, and the last exceeds the first by at most one. -/
structure Chain (os : List Obs) : Prop where
  completed_le : completed os ≤ answered os
  answered_le : answered os ≤ dispatches os
  dispatches_le : dispatches os ≤ arrived os
  arrived_le : arrived os ≤ started os
  started_le : started os ≤ completed os + 1

/-- The counts in a phase. -/
def tally (os : List Obs) : Phase → Prop
  | reading n => started os = n + 1 ∧ arrived os = n ∧ dispatches os = n ∧ answered os = n ∧
      completed os = n
  | processing n => started os = n + 1 ∧ arrived os = n + 1 ∧ dispatches os = n ∧
      answered os = n ∧ completed os = n
  | awaiting n => started os = n + 1 ∧ arrived os = n + 1 ∧ dispatches os = n + 1 ∧
      answered os = n ∧ completed os = n
  | writing n => started os = n + 1 ∧ arrived os = n + 1 ∧ dispatches os = n + 1 ∧
      answered os = n + 1 ∧ completed os = n
  | written n => started os = n ∧ arrived os = n ∧ dispatches os = n ∧ answered os = n ∧
      completed os = n
  | closed => Chain os ∧ answered os = arrived os

lemma chain_of_tally {os : List Obs} {p : Phase} (h : tally os p) : Chain os := by
  cases p with
  | closed => exact h.1
  | _ =>
      obtain ⟨h₁, h₂, h₃, h₄, h₅⟩ := h
      exact ⟨by omega, by omega, by omega, by omega, by omega⟩

/-- One observation moves the counts as it moves the phase. -/
lemma tally_next {os : List Obs} {p p' : Phase} {o : Obs} (h : tally os p)
    (hnext : next p o = some p') : tally (os ++ [o]) p' := by
  cases o with
  | writeEnded ok kept =>
      cases p with
      | writing n =>
          simp only [next, Option.some.injEq] at hnext
          subst hnext
          obtain ⟨h₁, h₂, h₃, h₄, h₅⟩ := h
          split_ifs with hkept
          · obtain ⟨rfl, rfl⟩ : ok = true ∧ kept = true := by simpa using hkept
            simp [tally, completes, answer, h₁, h₂, h₃, h₄, h₅]
          · refine ⟨?_, by simp [answer, h₂, h₄]⟩
            cases ok <;> constructor <;> simp [completes, answer] <;> omega
      | _ => simp [next] at hnext
  | readEnded =>
      cases p with
      | reading n =>
          simp only [next, Option.some.injEq] at hnext
          subst hnext
          obtain ⟨h₁, h₂, h₃, h₄, h₅⟩ := h
          refine ⟨?_, by simp [answer, h₂, h₄]⟩
          constructor <;> simp [completes, answer] <;> omega
      | _ => simp [next] at hnext
  | writeStarted number =>
      cases p with
      | awaiting n =>
          simp only [next] at hnext
          split_ifs at hnext
          cases hnext
          obtain ⟨h₁, h₂, h₃, h₄, h₅⟩ := h
          simp [tally, completes, answer, h₁, h₂, h₃, h₄, h₅]
      | _ => simp [next] at hnext
  | _ =>
      cases p <;> simp only [next, Option.some.injEq, reduceCtorEq] at hnext
      all_goals
        subst hnext
        obtain ⟨h₁, h₂, h₃, h₄, h₅⟩ := h
        simp [tally, completes, answer, h₁, h₂, h₃, h₄, h₅]

/-- **The counts of an accepted sequence.** -/
theorem run_tally : ∀ os p, protocol.run (written 0) os = some p → tally os p := by
  refine LTS.run_induction (P := fun os p => tally os p) ?_ ?_
  · simp [tally, started, arrived, dispatches, answered, answers, completed]
  · intro os p o p' _ h hnext
    exact tally_next h hnext

/-- **The responses are numbered in order.** -/
theorem run_answers : ∀ os p, protocol.run (written 0) os = some p →
    answers os = List.range' 1 (answered os) := by
  refine LTS.run_induction (P := fun os _ => answers os = List.range' 1 (answered os)) rfl ?_
  intro os p o p' hrun ih hnext
  rw [answers_snoc, answered_snoc]
  cases o with
  | writeStarted number =>
      cases p with
      | awaiting n =>
          obtain ⟨-, -, -, hn, -⟩ := run_tally os _ hrun
          simp only [protocol, next] at hnext
          split_ifs at hnext with hnumber
          simp only [answer, Option.toList_some, List.length_singleton, hnumber]
          rw [List.range'_concat, ← ih, hn, Nat.one_mul, Nat.add_comm]
      | _ => simp [protocol, next] at hnext
  | _ => simpa [answer] using ih

/-- The beginning of an accepted sequence is accepted. -/
lemma run_prefix {os rest : List Obs} {p : Phase}
    (h : protocol.run (written 0) (os ++ rest) = some p) :
    ∃ q, protocol.run (written 0) os = some q ∧ protocol.run q rest = some p := by
  rw [LTS.run_append] at h
  exact Option.bind_eq_some_iff.mp h

/-- **A read starts only when every response before it has been written.** -/
theorem completed_of_readStarted {os rest : List Obs} {p : Phase}
    (h : protocol.run (written 0) (os ++ .readStarted :: rest) = some p) :
    completed os = started os ∧ answered os = started os := by
  obtain ⟨q, hq, hrest⟩ := run_prefix h
  cases q with
  | written n =>
      obtain ⟨h₁, -, -, h₄, h₅⟩ := run_tally os _ hq
      exact ⟨h₅.trans h₁.symm, h₄.trans h₁.symm⟩
  | _ => simp [protocol, next] at hrest

/-- Observations after which the stream is not used again. -/
def Final : Obs → Prop
  | .readEnded => True
  | .writeEnded ok kept => ¬ (ok = true ∧ kept = true)
  | _ => False

lemma next_final {p p' : Phase} {o : Obs} (ho : Final o) (h : next p o = some p') :
    p' = closed := by
  cases o with
  | readEnded => cases p <;> simp_all [next]
  | writeEnded ok kept =>
      cases p with
      | writing n =>
          have hbool : (ok && kept) = false := by
            simpa [Final] using ho
          simpa [next, hbool] using h.symm
      | _ => simp [next] at h
  | _ => exact ho.elim

/-- **Nothing is seen after a final observation.** -/
theorem nothing_after_final {os rest : List Obs} {o : Obs} {p : Phase} (ho : Final o)
    (h : protocol.run (written 0) (os ++ o :: rest) = some p) : rest = [] := by
  obtain ⟨q, -, hq⟩ := run_prefix h
  rw [LTS.run_cons] at hq
  obtain ⟨q', hq', hrest⟩ := Option.bind_eq_some_iff.mp hq
  obtain rfl := next_final ho hq'
  cases rest with
  | nil => rfl
  | cons o' rest => simp [protocol, next] at hrest

end Phase

end HttpServer
