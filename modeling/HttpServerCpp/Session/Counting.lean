import HttpServerCpp.Session.History

/-!
# What a session counts

The counters are updated before or after a response is sent, depending on the way out of
`processRequest`, and in every outcome of a read or a write.  This file relates what one session
has counted to its state.

* The lemmas of "What a step counts" say what a step adds, one for each relation.
* `Tallied` is what they come to in any run: reads against handled requests, and counted writes
  against completed ones.
* `countedWrites_le` needs single use: `onWrite` waits for the strand, so the request is counted
  as handled before the write of its response is counted.
-/

namespace HttpServer

variable {H : Type}

/-- Whether an output increments a counter. -/
def Output.incs (c : Counter) : Output H → Bool
  | .inc c' => c' = c
  | _ => false

/-- Whether an output is the completion of a write. -/
def Output.endsWrite : Output H → Bool
  | .writeEnded _ _ => true
  | _ => false

/-- How often a session has incremented a counter. -/
def counted (c : Counter) (log : List (Output H)) : Nat := log.countP (Output.incs c)

/-- How many writes a session has counted, with any outcome. -/
def countedWrites (log : List (Output H)) : Nat :=
  counted .writeSuccess log + counted .writeFail log + counted .writeTimeout log

/-- How many of its writes have completed. -/
def endedWrites (log : List (Output H)) : Nat := log.countP Output.endsWrite

lemma counted_append (c : Counter) (log log' : List (Output H)) :
    counted c (log ++ log') = counted c log + counted c log' := List.countP_append

lemma countedWrites_append (log log' : List (Output H)) :
    countedWrites (log ++ log') = countedWrites log + countedWrites log' := by
  simp only [countedWrites, counted_append]
  omega

lemma endedWrites_append (log log' : List (Output H)) :
    endedWrites (log ++ log') = endedWrites log + endedWrites log' := List.countP_append

namespace Session

/-- The session has counted a read and not yet counted the request as handled. -/
def busy (s : Session) : Bool := s.strand ≠ .idle

/-- The session is between the increment and the decrement around `handle()`. -/
def inHandler (s : Session) : Bool := s.strand = .handling

variable {ctx : Context H} {s s' : Session} {e : Event} {o log : List (Output H)} {id : UInt64}
  {p : Phase}

/-! ## What a step counts -/

section Step

variable (hstep : Step ctx s e s' o)
include hstep

/-- No counter is incremented twice. -/
lemma counted_le_one (c : Counter) : counted c o ≤ 1 := by
  have hone : ∀ c', (if c' = c then 1 else 0) ≤ 1 := by
    intro c'
    split_ifs <;> decide
  cases hstep <;> simp [counted, List.countP_cons, Output.incs, hone]

/-- A read makes the session busy, and counting the request as handled ends it. -/
lemma reads_step :
    counted .readSuccess o + s.busy.toNat = counted .handleRequest o + s'.busy.toNat := by
  cases hstep with
  | requestRead received hidle => rw [busy, hidle]; rfl
  | rejected now rsp hprocessing => rw [busy, hprocessing]; rfl
  | called now handler request hprocessing => rw [busy, hprocessing]; rfl
  | handleReturns hhandling => rw [busy, hhandling]; rfl
  | countHandled hreturned => rw [busy, hreturned]; rfl
  | _ => rfl

/-- Every read that is counted brought a request. -/
lemma received_step : counted .readSuccess o = (receivedOf o).length := by
  cases hstep <;> rfl

/-- A completion joins the queue, and `onWrite` counts the one at its head. -/
lemma ends_step :
    countedWrites o + s'.onWrites.length = endedWrites o + s.onWrites.length := by
  cases hstep with
  | writeDone i r w hw =>
      show 0 + (s.onWrites ++ [(w.keepAlive, r)]).length = 1 + s.onWrites.length
      rw [List.length_append, List.length_singleton]
      omega
  | writeTimeout _ _ _ hqueue | writeError _ _ _ hqueue | writeClosed _ _ hqueue
  | writeKept _ _ hqueue =>
      rw [hqueue, List.length_cons]
      exact (Nat.add_comm _ _).trans (Nat.zero_add _).symm
  | _ => rfl

/-- A write that starts is outstanding until it completes. -/
lemma starts_step :
    endedWrites o + s'.writes.length = (writesOf o).length + s.writes.length := by
  cases hstep with
  | rejected now rsp =>
      show 0 + (s.writes ++ [_]).length = 1 + s.writes.length
      rw [List.length_append, List.length_singleton]
      omega
  | send k rsp =>
      show 0 + (s.writes ++ [_]).length = 1 + s.writes.length
      rw [List.length_append, List.length_singleton]
      omega
  | writeDone i r w hw =>
      show 1 + (s.writes.eraseIdx i).length = 0 + s.writes.length
      rw [← List.length_eraseIdx_add_one (List.getElem?_eq_some_iff.mp hw).1]
      omega
  | _ => rfl

end Step

/-! ## Runs -/

/-- The counts of a session and its state. -/
structure Tallied (s : Session) (log : List (Output H)) : Prop where
  reads : counted .readSuccess log = counted .handleRequest log + s.busy.toNat
  received : counted .readSuccess log = (receivedOf log).length
  ends : countedWrites log + s.onWrites.length = endedWrites log
  starts : endedWrites log + s.writes.length = (writesOf log).length

lemma Tallied.step (h : s.Tallied log) (hstep : Step ctx s e s' o) : s'.Tallied (log ++ o) where
  reads := by
    have hadd := reads_step hstep
    rw [counted_append, counted_append, h.reads]
    omega
  received := by
    rw [counted_append, receivedOf_append, List.length_append, h.received, received_step hstep]
  ends := by
    have hadd := ends_step hstep
    rw [countedWrites_append, endedWrites_append, ← h.ends]
    omega
  starts := by
    have hadd := starts_step hstep
    rw [endedWrites_append, writesOf_append, List.length_append, ← h.starts]
    omega

/-- **The counts in every run**, also in those that use a writer more than once. -/
theorem run_tallied :
    ∀ es t, (lts ctx).run (init ctx id) es = some t → t.1.Tallied t.2 := by
  refine run_preserves (P := Tallied) ⟨rfl, rfl, rfl, rfl⟩ ?_
  intro s log e s' o ih _ hstep
  exact ih.step hstep

/-- While the last request is not counted as handled, the write of its response is not counted. -/
lemma Serves.countedWrites_le (hs : Serves ctx.boost s p)
    (htally : Phase.tally (observations log) p) (h : s.Tallied log) :
    countedWrites log ≤ counted .handleRequest log := by
  obtain ⟨hreads, hreceived, hends, hstarts⟩ := h
  have hbusy : s.busy.toNat ≤ 1 := Bool.toNat_le _
  have hfree : s.strand = .idle → s.busy.toNat = 0 := fun hidle => by rw [busy, hidle]; rfl
  have hanswered := (Phase.chain_of_tally htally).answered_le
  have hdispatches := (Phase.chain_of_tally htally).dispatches_le
  rw [length_writesOf] at hstarts
  rw [length_receivedOf] at hreceived
  cases hs with
  | reading _ _ hstrand | closed _ hstrand | destroyed _ _ _ _ hstrand =>
      rw [hfree hstrand] at hreads
      omega
  | processing n | awaiting n =>
      obtain ⟨-, harrived, -, hdone, -⟩ := htally
      omega
  | writing n _ _ _ hwrites =>
      rw [hwrites, List.length_singleton] at hstarts
      omega
  | written n _ _ _ _ hqueue | closing _ _ _ _ _ _ hqueue =>
      rw [hqueue, List.length_singleton] at hends
      omega

/-- **A write is counted after its request**, in every run of single use. -/
theorem countedWrites_le {es : List Event} {t : Session × List (Output H)}
    (h : (singleUse ctx).run (init ctx id) es = some t) :
    countedWrites t.2 ≤ counted .handleRequest t.2 := by
  obtain ⟨p, hp, hs⟩ := run_serves es t h
  exact hs.countedWrites_le (Phase.run_tally _ _ hp) (run_tallied es t (LTS.run_of_restrict es t h))

end Session

end HttpServer
