import HttpServerCpp.Session.History
import HttpServerCpp.Session.InFlight

/-!
# Exactly once and in order

What single use of the writers gives, over runs of any length and every order of handler returns,
sends, completions, timeouts and errors.  `Serial` states it for one state of a run and its log:

* the session is in exactly one of four situations and has at most one operation outstanding;
* every request is dispatched once, and the responses are written in the order of the requests;
* reads are numbered 1, 2, 3 and so on, and a read waits for the writes before it;
* nothing follows an error, a timeout, the end of the stream or a last response.
-/

namespace HttpServer

variable {H : Type}

/-- The request identifiers with which reads were started. -/
def readIdsOf (log : List (Output H)) : List UInt64 :=
  log.filterMap fun | .readStarted requestId => some requestId | _ => none

@[simp] lemma readIdsOf_append (log log' : List (Output H)) :
    readIdsOf (log ++ log') = readIdsOf log ++ readIdsOf log' := List.filterMap_append

lemma length_readIdsOf (log : List (Output H)) :
    (readIdsOf log).length = Phase.started (observations log) := by
  refine length_filterMap_log ?_ log
  intro o
  cases o <;> rfl

/-- The outputs after which a session stops. -/
def Output.Final : Output H → Prop
  | .readEnded => True
  | .writeEnded kept r => ¬ (kept = true ∧ r = .ok)
  | _ => False

lemma Output.Final.obs {o : Output H} (h : o.Final) : ∃ a, o.obs = some a ∧ Phase.Final a := by
  cases o with
  | readEnded => exact ⟨_, rfl, trivial⟩
  | writeEnded kept r =>
      refine ⟨_, rfl, fun ⟨hok, hkept⟩ => h ⟨hkept, ?_⟩⟩
      simpa using hok
  | _ => exact h.elim

namespace Session

/-- A read is outstanding; a request was read whose response has not been sent yet; a write is
outstanding or its `onWrite` is queued; the session is closed or released. -/
def situations (t : Session × List (Output H)) : List Bool :=
  [t.1.reads = 1,
    t.1.alive = true ∧ (writesOf t.2).length < (receivedOf t.2).length,
    t.1.writes.length + t.1.onWrites.length = 1,
    t.1.isOpen = false ∨ t.1.alive = false]

/-- Exactly-once, in-order handling of requests, in one state of a run. -/
structure Serial (ctx : Context H) (id : UInt64) (t : Session × List (Output H)) : Prop where
  situation : (situations t).count true = 1
  operations_le : t.1.reads + t.1.writes.length + t.1.onWrites.length ≤ 1
  /-- only the request that the strand is about to process has not been dispatched -/
  dispatched_once : (receivedOf t.2).length =
    (dispatchesOf t.2).length + if t.1.strand = .processing then 1 else 0
  /-- the dispatch and the response of every number belong to the request of that number -/
  ledger : Ledger ctx id (receivedOf t.2) (dispatchesOf t.2) (writesOf t.2)
  rejected : ∀ (j : Nat) rsp, (dispatchesOf t.2)[j]? = some (.reject rsp) →
    rsp.status = .Bad_Request ∧ ∃ message, (writesOf t.2)[j]? = some (j + 1, rsp, message)
  in_order : (writesOf t.2).map Prod.fst = List.range' 1 (writesOf t.2).length
  read_ids : readIdsOf t.2 = (List.range' 1 (readIdsOf t.2).length).map UInt64.ofNat
  request_ids : ∀ (j : Nat) handler request,
    (dispatchesOf t.2)[j]? = some (.handle handler request) →
      request.requestId = UInt64.ofNat (j + 1)
  read_after_write : ∀ log requestId rest, t.2 = log ++ .readStarted requestId :: rest →
    Phase.completed (observations log) = (readIdsOf log).length
  final : ∀ log o rest, t.2 = log ++ o :: rest → o.Final → observations rest = []

variable {ctx : Context H} {s s' : Session} {e : Event} {o log : List (Output H)} {id : UInt64}
  {p : Phase} {t : Session × List (Output H)} {es : List Event}

/-! ## The situations -/

/-- In each phase one situation holds, and it tells the phase. -/
lemma Serves.situation (hs : Serves ctx.boost t.1 p) (htally : Phase.tally (observations t.2) p)
    (hlive : t.1.alive = true ∨ t.1.isOpen = false) :
    (situations t).count true = 1 ∧
      t.1.reads + t.1.writes.length + t.1.onWrites.length ≤ 1 := by
  have harrived := length_receivedOf t.2
  have hanswered := length_writesOf t.2
  cases hs with
  | closed hopen _ hreads hwrites hqueue =>
      obtain ⟨-, heq⟩ := htally
      have hnone : ¬ (writesOf t.2).length < (receivedOf t.2).length := by omega
      simp [situations, hopen, hreads, hwrites, hqueue, hnone]
  | closing kept r hopen _ hreads hwrites hqueue =>
      obtain ⟨-, heq⟩ := htally
      have hnone : ¬ (writesOf t.2).length < (receivedOf t.2).length := by omega
      have halive : t.1.alive = true := by simpa [hopen] using hlive
      simp [situations, hopen, hreads, hwrites, hqueue, hnone, halive]
  | destroyed _ _ halive hopen _ hreads hwrites hqueue =>
      simp [situations, halive, hopen, hreads, hwrites, hqueue]
  | processing n hopen _ hreads hwrites hqueue =>
      obtain ⟨-, h₂, -, h₄, -⟩ := htally
      have hdue : (writesOf t.2).length < (receivedOf t.2).length := by omega
      have halive : t.1.alive = true := by simpa [hopen] using hlive
      simp [situations, hopen, hreads, hwrites, hqueue, hdue, halive]
  | awaiting n hopen _ hreads hwrites hqueue =>
      obtain ⟨-, h₂, -, h₄, -⟩ := htally
      have hdue : (writesOf t.2).length < (receivedOf t.2).length := by omega
      have halive : t.1.alive = true := by simpa [hopen] using hlive
      simp [situations, hopen, hreads, hwrites, hqueue, hdue, halive]
  | reading n hopen _ hreads hwrites hqueue | writing n hopen _ hreads hwrites hqueue
  | written n hopen _ hreads hwrites hqueue =>
      obtain ⟨-, h₂, -, h₄, -⟩ := htally
      have hnone : ¬ (writesOf t.2).length < (receivedOf t.2).length := by omega
      have halive : t.1.alive = true := by simpa [hopen] using hlive
      simp [situations, hopen, hreads, hwrites, hqueue, hnone, halive]

/-- Only a request about to be processed has not been dispatched. -/
lemma Serves.dispatched_once (hs : Serves ctx.boost s p)
    (htally : Phase.tally (observations log) p) :
    (receivedOf log).length =
      (dispatchesOf log).length + if s.strand = .processing then 1 else 0 := by
  have hall : (∀ n, p ≠ .processing n) →
      Phase.arrived (observations log) = Phase.dispatches (observations log) := fun hphase => by
    cases p with
    | processing n => exact absurd rfl (hphase n)
    | closed =>
        obtain ⟨hchain, heq⟩ := htally
        have := hchain.answered_le
        have := hchain.dispatches_le
        omega
    | _ =>
        obtain ⟨-, h₂, h₃, -, -⟩ := htally
        exact h₂.trans h₃.symm
  rw [length_receivedOf, length_dispatchesOf]
  cases hs with
  | processing n _ hstrand =>
      obtain ⟨-, h₂, h₃, -, -⟩ := htally
      rw [if_pos hstrand, h₂, h₃]
  | reading n _ hstrand => rw [if_neg (by simp [hstrand]), hall (by simp), Nat.add_zero]
  | closed _ hstrand => rw [if_neg (by simp [hstrand]), hall (by simp), Nat.add_zero]
  | destroyed _ hphase _ _ hstrand => rw [if_neg (by simp [hstrand]), hall hphase, Nat.add_zero]
  | awaiting n _ hstrand | writing n _ hstrand | written n _ hstrand | closing _ _ _ hstrand =>
      rw [if_neg hstrand, hall (by simp), Nat.add_zero]

/-! ## Numbers and identifiers -/

/-- The responses are written in the order of the requests. -/
lemma run_in_order (h : (singleUse ctx).run (init ctx id) es = some t) :
    (writesOf t.2).map Prod.fst = List.range' 1 (writesOf t.2).length := by
  obtain ⟨p, hp, -⟩ := run_serves es t h
  rw [← answers_observations, length_writesOf]
  exact Phase.run_answers _ _ hp

lemma number_of_write (h : (singleUse ctx).run (init ctx id) es = some t) {j k : Nat}
    {rsp : HttpResponse} {message : ResponseMessage}
    (hj : (writesOf t.2)[j]? = some (k, rsp, message)) : k = j + 1 := by
  have hk : ((writesOf t.2).map Prod.fst)[j]? = some k := by rw [List.getElem?_map, hj]; rfl
  rw [run_in_order h, List.getElem?_range' (List.getElem?_eq_some_iff.mp hj).1, Nat.one_mul,
    Nat.add_comm] at hk
  exact (Option.some.inj hk).symm

/-- A read starts with the number of the read as its identifier. -/
lemma readIds_step (hs : Serves ctx.boost s p) (htally : Phase.tally (observations log) p)
    (halive : s.alive = true) (hstep : Step ctx s e s' o)
    (h : readIdsOf log = (List.range' 1 (readIdsOf log).length).map UInt64.ofNat) :
    readIdsOf (log ++ o) =
      (List.range' 1 (readIdsOf (log ++ o)).length).map UInt64.ofNat := by
  cases hstep with
  | writeKept rest hidle hqueue =>
      cases hs with
      | written n hopen _ hreads hwrites hone hsent hcount hid =>
          obtain ⟨hstarted, -⟩ := htally
          rw [← length_readIdsOf] at hstarted
          rw [readIdsOf_append]
          show readIdsOf log ++ [s.currentRequestId + 1] = (List.range' 1
            (readIdsOf log ++ [s.currentRequestId + 1]).length).map UInt64.ofNat
          rw [List.length_append, List.length_singleton, List.range'_concat, List.map_append, ← h,
            hstarted, hid]
          simp [Nat.add_comm]
      | _ => simp_all
  | _ => simpa [readIdsOf] using h

lemma run_readIds :
    ∀ es t, (singleUse ctx).run (init ctx id) es = some t →
      readIdsOf t.2 = (List.range' 1 (readIdsOf t.2).length).map UInt64.ofNat := by
  refine singleUse_preserves (P := fun _ log =>
    readIdsOf log = (List.range' 1 (readIdsOf log).length).map UInt64.ofNat) rfl ?_
  intro s log p e s' o ih hs htally halive _ hstep
  exact readIds_step hs htally halive hstep ih

/-- What is released is closed. -/
lemma closed_step (halive : s.alive = true) (hstep : Step ctx s e s' o) :
    s'.alive = true ∨ s'.isOpen = false := by
  cases hstep with
  | destroyed => exact .inr rfl
  | _ => exact .inl halive

lemma run_closed_of_released :
    ∀ es t, (lts ctx).run (init ctx id) es = some t → t.1.alive = true ∨ t.1.isOpen = false := by
  refine run_preserves (P := fun s _ => s.alive = true ∨ s.isOpen = false) (.inl rfl) ?_
  intro s log e s' o _ halive hstep
  exact closed_step halive hstep

/-! ## The result -/

/-- **Exactly once and in order**: every state of every run in which each writer is used for at
most one `send`. -/
theorem serial_of_singleUse (ctx : Context H) (id : UInt64) (es : List Event)
    (t : Session × List (Output H)) (h : (singleUse ctx).run (init ctx id) es = some t) :
    Serial ctx id t := by
  obtain ⟨p, hp, hs⟩ := run_serves es t h
  have htally := Phase.run_tally _ _ hp
  have hledger := (run_recorded es t h).ledger
  have hlive := run_closed_of_released es t (LTS.run_of_restrict es t h)
  obtain ⟨hsituation, hle⟩ := hs.situation htally hlive
  refine ⟨hsituation, hle, hs.dispatched_once htally, hledger, ?_, run_in_order h,
    run_readIds es t h, ?_, ?_, ?_⟩
  · intro j rsp hj
    obtain ⟨m, now, -, hd⟩ := hledger.dispatched j _ hj
    obtain ⟨k, message, hw⟩ := hledger.rejected j rsp hj
    exact ⟨ctx.dispatch_reject hd.symm, message, number_of_write h hw ▸ hw⟩
  · intro j handler request hj
    obtain ⟨m, now, -, hd⟩ := hledger.dispatched j _ hj
    exact (ctx.dispatch_handle hd.symm).2
  · intro log requestId rest hlog
    have hobs : observations t.2 =
        observations log ++ .readStarted :: observations rest := by
      rw [hlog, observations_append]
      rfl
    rw [length_readIdsOf]
    exact (Phase.completed_of_readStarted (hobs ▸ hp)).1
  · intro log o rest hlog hfinal
    obtain ⟨a, hobs, ha⟩ := hfinal.obs
    have hsplit : observations t.2 = observations log ++ a :: observations rest := by
      rw [hlog, observations_append, observations, observations, List.filterMap_cons_some hobs]
      rfl
    exact Phase.nothing_after_final ha (hsplit ▸ hp)

theorem serial_of_singleUse_hello :
    ∃ t, (singleUse helloContext).run (init helloContext 1) helloExchange = some t ∧
      Serial helloContext 1 t :=
  ⟨_, rfl, serial_of_singleUse helloContext 1 helloExchange _ rfl⟩

/-! ## Operations in flight -/

/-- Single use keeps `send` away from a session that is committed to anything. -/
lemma Serves.unobstructed (hs : Serves ctx.boost s p) (hsingle : s.SingleUse e)
    (hstep : Step ctx s e s' o) : s.Unobstructed ctx e := by
  cases hstep with
  | send k rsp hk =>
      have hunused : k ∉ s.sent := hsingle
      show s.commitments ctx = 0
      cases hs with
      | awaiting n _ hstrand hreads hwrites hqueue =>
          simp [commitments, owes, hstrand, hreads, hwrites, hqueue]
      | destroyed _ _ _ _ hstrand hreads hwrites hqueue =>
          simp [commitments, owes, hstrand, hreads, hwrites, hqueue]
      | _ => exact absurd (List.Perm.mem_iff ‹_› |>.mpr hk) hunused
  | _ => trivial

/-- **Operations never overlap under single use.** -/
theorem inFlight_of_singleUse (h : (singleUse ctx).run (init ctx id) es = some t) :
    t.1.InFlight := by
  refine (run_committed (LTS.restrict_mono ?_ es t h)).inFlight
  intro es t e t' hrun hsingle hstep
  obtain ⟨p, -, hs⟩ := run_serves es t hrun
  obtain ⟨o, -, hcases, -⟩ := lts_step hstep
  exact hs.unobstructed hsingle hcases

end Session

end HttpServer
