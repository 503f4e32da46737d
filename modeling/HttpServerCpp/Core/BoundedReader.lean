import Mathlib.Algebra.GroupWithZero.Nat
import HttpServerCpp.Core.Transition

/-!
# Reading a message through a bounded buffer

A parser that reads from a stream into a buffer of fixed capacity and takes the parts of a message
out of it.  Some parts it takes only when they are there as a whole, such as a header or a line;
of others it takes what has arrived.  A full buffer from which it can take nothing is an error, and
so is a body of more octets than it is prepared to take.

* `Reader.parse` takes out of the buffer what it can, and `Reader.receive` is one read.
* `Fits` says which messages pass, `run_meets` that this does not depend on the way the octets
  arrive: the reader is done with a message that fits, has failed on one that does not, or waits
  for octets that have not arrived, with room for them.
* `exists_decided`: it does not wait forever.
-/

namespace HttpServer

/-! ## Messages -/

/-- A part of a message: octets taken all at once, or body octets taken as they arrive. -/
inductive Piece where
  | whole (n : Nat)
  | octets (n : Nat)
deriving DecidableEq

/-- The number of octets of a message. -/
def messageSize : List Piece → Nat
  | [] => 0
  | .whole n :: rest => n + messageSize rest
  | .octets n :: rest => n + messageSize rest

/-- The number of its body octets. -/
def bodySize : List Piece → Nat
  | [] => 0
  | .whole _ :: rest => bodySize rest
  | .octets n :: rest => n + bodySize rest

/-- Every part that is taken at once fits into the buffer, and the body is within the limit. -/
structure Fits (capacity limit : Nat) (pieces : List Piece) : Prop where
  whole_le : ∀ n, .whole n ∈ pieces → n ≤ capacity
  body_le : bodySize pieces ≤ limit

section Fits

variable {capacity limit n k : Nat} {rest pieces : List Piece}

lemma fits_whole : Fits capacity limit (.whole n :: rest) ↔ n ≤ capacity ∧ Fits capacity limit rest := by
  constructor
  · rintro ⟨hwhole, hbody⟩
    exact ⟨hwhole n List.mem_cons_self, fun k hk => hwhole k (List.mem_cons_of_mem _ hk), hbody⟩
  · rintro ⟨hn, hwhole, hbody⟩
    refine ⟨fun k hk => ?_, hbody⟩
    rcases List.mem_cons.mp hk with hk | hk
    · cases hk
      exact hn
    · exact hwhole k hk

/-- Taking `k` body octets leaves that much less to take and to allow. -/
lemma fits_octets (hk : k ≤ n) (hlimit : n ≤ limit) :
    Fits capacity limit (.octets n :: rest) ↔
      Fits capacity (limit - k) (.octets (n - k) :: rest) := by
  have hmem : ∀ i j, .whole i ∈ Piece.octets j :: rest ↔ .whole i ∈ rest := by simp
  constructor
  · rintro ⟨hwhole, hbody⟩
    refine ⟨fun i hi => hwhole i ((hmem i n).mpr ((hmem i _).mp hi)), ?_⟩
    simp only [bodySize] at hbody ⊢
    omega
  · rintro ⟨hwhole, hbody⟩
    refine ⟨fun i hi => hwhole i ((hmem i _).mpr ((hmem i n).mp hi)), ?_⟩
    simp only [bodySize] at hbody ⊢
    omega

lemma fits_octets_zero :
    Fits capacity limit (.octets 0 :: rest) ↔ Fits capacity limit rest := by
  have hmem : ∀ i, .whole i ∈ Piece.octets 0 :: rest ↔ .whole i ∈ rest := by simp
  have hbody : bodySize (.octets 0 :: rest) = bodySize rest := Nat.zero_add _
  exact ⟨fun h => ⟨fun i hi => h.whole_le i ((hmem i).mpr hi), hbody ▸ h.body_le⟩,
    fun h => ⟨fun i hi => h.whole_le i ((hmem i).mp hi), hbody ▸ h.body_le⟩⟩

lemma whole_le_messageSize (h : .whole n ∈ pieces) : n ≤ messageSize pieces := by
  induction pieces with
  | nil => cases h
  | cons p rest ih =>
      rcases List.mem_cons.mp h with rfl | h
      · exact Nat.le_add_right _ _
      · have hrest := ih h
        cases p <;> simp only [messageSize] <;> omega

end Fits

/-! ## The reader -/

inductive ReadError where
  | bufferOverflow | bodyLimit
deriving DecidableEq

/-- Where the reader stands: what is left of the message, the octets in the buffer and the body
octets still allowed; or how it ended, with what is left in the buffer. -/
inductive Reader where
  | reading (pieces : List Piece) (buffered limit : Nat)
  | done (left : Nat)
  | failed (e : ReadError)
deriving DecidableEq

namespace Reader

/-- Nothing more can be taken: wait for a read, if there is room for one. -/
def wait (capacity : Nat) (pieces : List Piece) (buffered limit : Nat) : Reader :=
  if buffered < capacity then .reading pieces buffered limit else .failed .bufferOverflow

/-- Take out of the buffer what can be taken. -/
def parse (capacity : Nat) : List Piece → Nat → Nat → Reader
  | [], buffered, _ => .done buffered
  | .whole n :: rest, buffered, limit =>
      if n ≤ buffered then parse capacity rest (buffered - n) limit
      else wait capacity (.whole n :: rest) buffered limit
  | .octets n :: rest, buffered, limit =>
      if limit < n then .failed .bodyLimit
      else if n ≤ buffered then parse capacity rest (buffered - n) (limit - n)
      else wait capacity (.octets (n - buffered) :: rest) 0 (limit - buffered)

/-- One read: some octets, at most as many as there is room for. -/
def receive (capacity : Nat) : Reader → Nat → Option Reader
  | .reading pieces buffered limit, n =>
      if 0 < n ∧ n ≤ capacity - buffered then some (parse capacity pieces (buffered + n) limit)
      else none
  | .done _, _ | .failed _, _ => none

/-- The reader, the events being the sizes of the reads. -/
def lts (capacity : Nat) : LTS Reader Nat := ⟨receive capacity⟩

/-- What the state of the reader says about the message, when `received` octets are in. -/
def Meets (capacity limit : Nat) (pieces : List Piece) (received : Nat) : Reader → Prop
  | .reading pieces' buffered limit' =>
      (Fits capacity limit pieces ↔ Fits capacity limit' pieces') ∧ buffered < capacity ∧
        buffered < messageSize pieces' ∧
        messageSize pieces + buffered = messageSize pieces' + received
  | .done left => Fits capacity limit pieces ∧ received = messageSize pieces + left
  | .failed _ => ¬ Fits capacity limit pieces

variable {capacity limit : Nat}

/-- What is said about the rest of a message says the same about the whole of it. -/
lemma Meets.of_rest {limit' received received' : Nat} {pieces pieces' : List Piece} {r : Reader}
    (hfits : Fits capacity limit pieces ↔ Fits capacity limit' pieces')
    (hsize : messageSize pieces + received' = messageSize pieces' + received)
    (h : r.Meets capacity limit' pieces' received') : r.Meets capacity limit pieces received := by
  cases r with
  | reading rest buffered limit'' =>
      obtain ⟨hiff, hroom, hlt, hcount⟩ := h
      exact ⟨hfits.trans hiff, hroom, hlt, by omega⟩
  | done left => exact ⟨hfits.mpr h.1, by have := h.2; omega⟩
  | failed e => exact fun hfit => h (hfits.mp hfit)

/-- Parsing a buffer that is within its capacity. -/
lemma parse_meets (hcapacity : 0 < capacity) :
    ∀ (pieces : List Piece) (buffered limit : Nat), buffered ≤ capacity →
      (parse capacity pieces buffered limit).Meets capacity limit pieces buffered := by
  intro pieces
  induction pieces with
  | nil =>
      intro buffered limit _
      exact ⟨⟨by simp, Nat.zero_le _⟩, (Nat.zero_add _).symm⟩
  | cons p rest ih =>
      intro buffered limit hbuffered
      cases p with
      | whole n =>
          unfold parse
          split_ifs with hn
          · -- what is complete in the buffer fits into it
            refine (ih (buffered - n) limit (by omega)).of_rest ?_ ?_
            · exact fits_whole.trans (and_iff_right (Nat.le_trans hn hbuffered))
            · simp only [messageSize]
              omega
          · unfold wait
            split_ifs with hroom
            · exact ⟨Iff.rfl, hroom, by simp only [messageSize]; omega, rfl⟩
            · intro hfits
              have hle := (fits_whole.mp hfits).1
              omega
      | octets n =>
          unfold parse
          split_ifs with hlimit hn
          · intro hfits
            have hle := hfits.body_le
            simp only [bodySize] at hle
            omega
          · refine (ih (buffered - n) (limit - n) (by omega)).of_rest ?_ ?_
            · rw [fits_octets (Nat.le_refl n) (by omega), Nat.sub_self, fits_octets_zero]
            · simp only [messageSize]
              omega
          · unfold wait
            rw [if_pos hcapacity]
            refine ⟨fits_octets (by omega) (by omega), hcapacity, ?_, ?_⟩
            · simp only [messageSize]
              omega
            · simp only [messageSize]
              omega

/-- One read. -/
lemma Meets.receive {pieces : List Piece} {received n : Nat} {r r' : Reader}
    (hcapacity : 0 < capacity) (h : r.Meets capacity limit pieces received)
    (hstep : receive capacity r n = some r') : r'.Meets capacity limit pieces (received + n) := by
  cases r with
  | reading pieces' buffered limit' =>
      obtain ⟨hfits, hroom, -, hcount⟩ := h
      simp only [Reader.receive] at hstep
      split_ifs at hstep with hn
      cases hstep
      exact (parse_meets hcapacity pieces' (buffered + n) limit' (by omega)).of_rest hfits
        (by omega)
  | done left | failed e => cases hstep

/-- **The outcome does not depend on the arrivals.**  Any sequence of reads, from a buffer that
already holds some octets. -/
theorem run_meets (hcapacity : 0 < capacity) {pieces : List Piece} {buffered : Nat}
    (hbuffered : buffered ≤ capacity) :
    ∀ arrivals r, (lts capacity).run (parse capacity pieces buffered limit) arrivals = some r →
      r.Meets capacity limit pieces (buffered + arrivals.sum) := by
  refine LTS.run_induction (P := fun arrivals (r : Reader) =>
    r.Meets capacity limit pieces (buffered + arrivals.sum)) ?_ ?_
  · exact parse_meets hcapacity pieces buffered limit hbuffered
  · intro arrivals r n r' _ ih hstep
    rw [List.sum_append, List.sum_singleton, ← Nat.add_assoc]
    exact ih.receive hcapacity hstep

/-- The reader is done or has failed. -/
def Decided : Reader → Prop
  | .reading _ _ _ => False
  | .done _ | .failed _ => True

/-- While it waits, the reader has room for one more octet. -/
lemma receive_one {pieces : List Piece} {buffered : Nat} (hroom : buffered < capacity) :
    receive capacity (.reading pieces buffered limit) 1 =
      some (parse capacity pieces (buffered + 1) limit) :=
  if_pos ⟨Nat.one_pos, by omega⟩

/-- From any state of a run, octet by octet; `k` bounds the octets that have not arrived. -/
lemma decided_within (hcapacity : 0 < capacity) {pieces : List Piece} {buffered : Nat}
    (hbuffered : buffered ≤ capacity) :
    ∀ k arrivals r, (lts capacity).run (parse capacity pieces buffered limit) arrivals = some r →
      messageSize pieces ≤ buffered + arrivals.sum + k →
      ∃ arrivals r, (lts capacity).run (parse capacity pieces buffered limit) arrivals = some r ∧
        r.Decided := by
  intro k
  induction k with
  | zero =>
      intro arrivals r hrun hk
      have hmeets := run_meets hcapacity hbuffered arrivals r hrun
      cases r with
      | reading pieces' buffered' limit' =>
          obtain ⟨-, -, hlt, hcount⟩ := hmeets
          omega
      | done left | failed e => exact ⟨arrivals, _, hrun, trivial⟩
  | succ k ih =>
      intro arrivals r hrun hk
      have hmeets := run_meets hcapacity hbuffered arrivals r hrun
      cases r with
      | reading pieces' buffered' limit' =>
          refine ih (arrivals ++ [1]) (parse capacity pieces' (buffered' + 1) limit') ?_ ?_
          · rw [LTS.run_append, hrun]
            simpa [lts] using receive_one hmeets.2.1
          · rw [List.sum_append, List.sum_singleton]
            omega
      | done left | failed e => exact ⟨arrivals, _, hrun, trivial⟩

/-- **The reader does not wait forever**: it comes to a decision. -/
theorem exists_decided (hcapacity : 0 < capacity) (pieces : List Piece) {buffered : Nat}
    (hbuffered : buffered ≤ capacity) :
    ∃ arrivals r, (lts capacity).run (parse capacity pieces buffered limit) arrivals = some r ∧
      r.Decided :=
  decided_within hcapacity hbuffered (messageSize pieces) [] _ rfl (Nat.le_add_left _ _)

end Reader

end HttpServer
