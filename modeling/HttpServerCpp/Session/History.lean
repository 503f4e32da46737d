import HttpServerCpp.Session.Serving

/-!
# What the log of a session says

`request_` and `response_` live as long as the session and are reused for every request.  This
file shows that nothing of an earlier exchange stays in them.

* `Holds`: in every run, `request_` is the last message read, up to the body that
  `processRequest` clears.
* `Ledger`: entry by entry, each dispatch and each message written is computed from the request
  of the same number alone, as for a fresh `request_` and `response_`.
* `run_recorded`: so it is in every run of single use.
-/

namespace HttpServer

variable {H : Type}

/-! ## Reading the log -/

/-- The requests read. -/
def receivedOf (log : List (Output H)) : List RequestMessage :=
  log.filterMap fun | .requestRead m => some m | _ => none

/-- The ways out that `processRequest` took. -/
def dispatchesOf (log : List (Output H)) : List (Dispatch H) :=
  log.filterMap fun | .dispatched d => some d | _ => none

/-- The writes started, each with the number of the request it answers and the response sent. -/
def writesOf (log : List (Output H)) : List (Nat × HttpResponse × ResponseMessage) :=
  log.filterMap fun | .writeStarted k rsp m => some (k, rsp, m) | _ => none

@[simp] lemma receivedOf_append (log log' : List (Output H)) :
    receivedOf (log ++ log') = receivedOf log ++ receivedOf log' := List.filterMap_append

@[simp] lemma dispatchesOf_append (log log' : List (Output H)) :
    dispatchesOf (log ++ log') = dispatchesOf log ++ dispatchesOf log' := List.filterMap_append

@[simp] lemma writesOf_append (log log' : List (Output H)) :
    writesOf (log ++ log') = writesOf log ++ writesOf log' := List.filterMap_append

/-- What is read from a log is as long as there are observations of its kind. -/
lemma length_filterMap_log {α : Type} {f : Output H → Option α} {q : Obs → Bool}
    (h : ∀ o : Output H, (f o).isSome = (o.obs.map q).getD false) (log : List (Output H)) :
    (log.filterMap f).length = (observations log).countP q := by
  rw [observations, List.length_filterMap_eq_countP, List.countP_filterMap]
  congr 1
  funext o
  exact h o

lemma length_receivedOf (log : List (Output H)) :
    (receivedOf log).length = Phase.arrived (observations log) := by
  refine length_filterMap_log ?_ log
  intro o
  cases o <;> rfl

lemma length_dispatchesOf (log : List (Output H)) :
    (dispatchesOf log).length = Phase.dispatches (observations log) := by
  refine length_filterMap_log ?_ log
  intro o
  cases o <;> rfl

lemma answers_observations (log : List (Output H)) :
    Phase.answers (observations log) = (writesOf log).map Prod.fst := by
  rw [Phase.answers, observations, writesOf, List.filterMap_filterMap, List.map_filterMap]
  congr 1
  funext o
  cases o <;> rfl

lemma length_writesOf (log : List (Output H)) :
    (writesOf log).length = Phase.answered (observations log) := by
  rw [Phase.answered, answers_observations, List.length_map]

/-- The last request read; the fresh message before the first. -/
def lastReceived (log : List (Output H)) : RequestMessage := (receivedOf log).getLast?.getD .fresh

/-! ## Entries by index -/

section Entries

variable {α : Type} {l : List α} {j : Nat} {a b : α}

/-- The entry a list ends with, by its index. -/
lemma getElem?_of_getLast (h : l.length = j + 1) (a : α) : l[j]? = some (l.getLast?.getD a) := by
  rw [List.getLast?_eq_getElem?, h, Nat.add_sub_cancel, List.getElem?_eq_getElem (by omega)]
  rfl

/-- An entry stays where it is when the list grows. -/
lemma getElem?_append_of_some (h : l[j]? = some a) (l' : List α) : (l ++ l')[j]? = some a := by
  rw [List.getElem?_append_left (List.getElem?_eq_some_iff.mp h).1, h]

/-- An entry of a list that grew by one was there before or is the new one. -/
lemma getElem?_snoc (h : (l ++ [b])[j]? = some a) : l[j]? = some a ∨ j = l.length ∧ a = b := by
  rcases Nat.lt_trichotomy j l.length with hlt | rfl | hgt
  · rw [List.getElem?_append_left hlt] at h
    exact .inl h
  · rw [List.getElem?_concat_length] at h
    exact .inr ⟨rfl, (Option.some.inj h).symm⟩
  · rw [List.getElem?_eq_none (by simpa using Nat.succ_le_of_lt hgt)] at h
    cases h

end Entries

namespace Session

/-! ## The request of a session -/

/-- `request_` is the last message read, whole until `processRequest` has cleared its body. -/
def Holds (s : Session) (log : List (Output H)) : Prop :=
  s.request = if s.strand = .processing then lastReceived log else (lastReceived log).clearBody

variable {ctx : Context H} {s s' : Session} {e : Event} {o log : List (Output H)} {id : UInt64}

/-- Reading into a message whose body was cleared gives the message read. -/
lemma readInto_clearBody (m received : RequestMessage) :
    m.clearBody.readInto received = received := by
  simp [RequestMessage.readInto, RequestMessage.clearBody]

lemma Holds.step (hs : s.Holds log) (hstep : Step ctx s e s' o) : s'.Holds (log ++ o) := by
  have hcleared : s.strand ≠ .processing → s.request = (lastReceived log).clearBody :=
    fun h => by rw [hs, if_neg h]
  have hlast : receivedOf o = [] → lastReceived (log ++ o) = lastReceived log := fun h => by
    rw [lastReceived, receivedOf_append, h, List.append_nil, lastReceived]
  cases hstep with
  | requestRead received hfree hreads =>
      have hreceived : lastReceived (log ++ [.requestRead received, .inc .readSuccess]) =
          received := by
        simp [lastReceived, receivedOf]
      simp only [Holds, if_true, hreceived, hcleared (by simp [hfree]),
        readInto_clearBody]
  | rejected now rsp hprocessing hdispatch =>
      rw [Holds, hlast rfl, if_neg (by simp)]
      exact congrArg RequestMessage.clearBody (by rw [hs, if_pos hprocessing])
  | called now handler request hprocessing hdispatch =>
      rw [Holds, hlast rfl, if_neg (by simp)]
      exact congrArg RequestMessage.clearBody (by rw [hs, if_pos hprocessing])
  | handleReturns hhandling =>
      rw [Holds, hlast rfl, if_neg (by simp)]
      exact hcleared (by simp [hhandling])
  | countHandled hreturned =>
      rw [Holds, hlast rfl, if_neg (by simp)]
      exact hcleared (by simp [hreturned])
  | _ =>
      rw [Holds, hlast rfl]
      exact hs

lemma readCount_step (hs : s.readCount = (receivedOf log).length) (hstep : Step ctx s e s' o) :
    s'.readCount = (receivedOf (log ++ o)).length := by
  rw [receivedOf_append, List.length_append, ← hs]
  cases hstep <;> rfl

/-- In every run the session has counted the requests it has read. -/
lemma run_readCount :
    ∀ es t, (lts ctx).run (init ctx id) es = some t →
      t.1.readCount = (receivedOf t.2).length := by
  refine run_preserves (P := fun s log => s.readCount = (receivedOf log).length) rfl ?_
  intro s log e s' o ih _ hstep
  exact readCount_step ih hstep

end Session

/-! ## The ledger -/

/-- Every dispatch and every write comes from the request of its number.

* A dispatch is computed from that request and the identifiers.
* A written message is computed from that request and the response sent, into a fresh message.
* A request the session answers by itself is answered with the response it was dispatched to. -/
structure Ledger (ctx : Context H) (id : UInt64) (received : List RequestMessage)
    (dispatches : List (Dispatch H)) (writes : List (Nat × HttpResponse × ResponseMessage)) :
    Prop where
  dispatched : ∀ (j : Nat) d, dispatches[j]? = some d → ∃ m now,
    received[j]? = some m ∧ d = ctx.dispatch m id (UInt64.ofNat (j + 1)) now
  written : ∀ (j : Nat) k rsp message, writes[j]? = some (k, rsp, message) → ∃ m,
    received[j]? = some m ∧ message = writeResponseMessage ctx.boost ctx.opts m rsp .fresh
  rejected : ∀ (j : Nat) rsp, dispatches[j]? = some (.reject rsp) →
    ∃ k message, writes[j]? = some (k, rsp, message)

namespace Ledger

variable {ctx : Context H} {id : UInt64} {received : List RequestMessage}
  {dispatches : List (Dispatch H)} {writes : List (Nat × HttpResponse × ResponseMessage)}
  {m : RequestMessage}

lemma nil (ctx : Context H) (id : UInt64) : Ledger ctx id [] [] [] where
  dispatched j d h := by simp at h
  written j k rsp message h := by simp at h
  rejected j rsp h := by simp at h

lemma receive (h : Ledger ctx id received dispatches writes) (ms : List RequestMessage) :
    Ledger ctx id (received ++ ms) dispatches writes where
  dispatched j d hj := by
    obtain ⟨m, now, hm, hd⟩ := h.dispatched j d hj
    exact ⟨m, now, getElem?_append_of_some hm ms, hd⟩
  written j k rsp message hj := by
    obtain ⟨m, hm, hmessage⟩ := h.written j k rsp message hj
    exact ⟨m, getElem?_append_of_some hm ms, hmessage⟩
  rejected := h.rejected

/-- A dispatch of the request of the next number; the session's own answer to it is there. -/
lemma dispatch {d : Dispatch H} (h : Ledger ctx id received dispatches writes) (now : Nat)
    (hm : received[dispatches.length]? = some m)
    (hd : d = ctx.dispatch m id (UInt64.ofNat (dispatches.length + 1)) now)
    (hreject : ∀ rsp, d = .reject rsp → ∃ k message,
      writes[dispatches.length]? = some (k, rsp, message)) :
    Ledger ctx id received (dispatches ++ [d]) writes where
  dispatched j d' hj := by
    rcases getElem?_snoc hj with hj | ⟨rfl, rfl⟩
    · exact h.dispatched j d' hj
    · exact ⟨m, now, hm, hd⟩
  written := h.written
  rejected j rsp hj := by
    rcases getElem?_snoc hj with hj | ⟨rfl, hd'⟩
    · exact h.rejected j rsp hj
    · exact hreject rsp hd'.symm

/-- The write of a response to the request of the next number. -/
lemma write (h : Ledger ctx id received dispatches writes) (k : Nat) (rsp : HttpResponse)
    (hm : received[writes.length]? = some m) :
    Ledger ctx id received dispatches
      (writes ++ [(k, rsp, writeResponseMessage ctx.boost ctx.opts m rsp .fresh)]) where
  dispatched := h.dispatched
  written j k' rsp' message hj := by
    rcases getElem?_snoc hj with hj | ⟨rfl, hlast⟩
    · exact h.written j k' rsp' message hj
    · cases hlast
      exact ⟨m, hm, rfl⟩
  rejected j rsp' hj := by
    obtain ⟨k', message, hwrite⟩ := h.rejected j rsp' hj
    exact ⟨k', message, getElem?_append_of_some hwrite _⟩

end Ledger

namespace Session

variable {ctx : Context H} {s s' : Session} {e : Event} {o log : List (Output H)} {id : UInt64}
  {p : Phase}

/-- What the session has done so far is in order: its request is the last one read, it has its
identifier, and its log is a ledger. -/
structure Recorded (ctx : Context H) (id : UInt64) (s : Session) (log : List (Output H)) :
    Prop where
  holds : s.Holds log
  hid : s.id = id
  ledger : Ledger ctx id (receivedOf log) (dispatchesOf log) (writesOf log)

/-- A step that neither dispatches nor starts a write. -/
lemma Recorded.append (h : Recorded ctx id s log) (hstep : Step ctx s e s' o) (hid : s'.id = s.id)
    (hd : dispatchesOf o = []) (hw : writesOf o = []) : Recorded ctx id s' (log ++ o) where
  holds := h.holds.step hstep
  hid := hid.trans h.hid
  ledger := by
    rw [receivedOf_append, dispatchesOf_append, writesOf_append, hd, hw, List.append_nil,
      List.append_nil]
    exact h.ledger.receive _

/-- The numbers while a request is about to be processed. -/
lemma processing_counts {n : Nat} (h : Recorded ctx id s log)
    (htally : Phase.tally (observations log) (.processing n))
    (hprocessing : s.strand = .processing) :
    (dispatchesOf log).length = n ∧ (writesOf log).length = n ∧
      (receivedOf log)[n]? = some s.request := by
  obtain ⟨-, harrived, hdispatches, hanswered, -⟩ := htally
  rw [← length_receivedOf] at harrived
  rw [← length_dispatchesOf] at hdispatches
  rw [← length_writesOf] at hanswered
  refine ⟨hdispatches, hanswered, ?_⟩
  rw [getElem?_of_getLast harrived .fresh, h.holds, if_pos hprocessing]
  rfl

/-- **The ledger step.**  The phase gives the number of the request that a dispatch or a write
belongs to, and `response_` is as good as fresh whenever a response is assembled in it. -/
lemma Recorded.step (h : Recorded ctx id s log) (hs : Serves ctx.boost s p)
    (htally : Phase.tally (observations log) p) (halive : s.alive = true)
    (hsingle : s.SingleUse e) (hstep : Step ctx s e s' o) : Recorded ctx id s' (log ++ o) := by
  have hwrite : ∀ rsp, s.CleanResponse → (s.writeResponse ctx rsp).response =
      writeResponseMessage ctx.boost ctx.opts s.request rsp .fresh := fun rsp hclean => by
    rw [← writeResponseMessage_clear ctx.opts s.request rsp s.response, hclean]
    rfl
  have hholds := h.holds.step hstep
  have happend := h.append hstep
  cases hstep with
  | rejected now rsp hprocessing hdispatch =>
      cases hs with
      | processing n hopen _ hreads hwrites hqueue hsent hcount hid hclean =>
          obtain ⟨hdispatches, hanswered, hlast⟩ := processing_counts h htally hprocessing
          refine ⟨hholds, h.hid, ?_⟩
          rw [receivedOf_append, dispatchesOf_append, writesOf_append]
          show Ledger ctx id (receivedOf log ++ []) (dispatchesOf log ++ [.reject rsp])
            (writesOf log ++ [(s.readCount, rsp, (s.writeResponse ctx rsp).response)])
          rw [List.append_nil, hwrite rsp hclean]
          have hwritten := h.ledger.write s.readCount rsp (hanswered ▸ hlast)
          refine hwritten.dispatch now (hdispatches ▸ hlast) ?_ ?_
          · rw [hdispatches, ← hid, ← h.hid, hdispatch]
          · rintro rsp' hrsp'
            cases hrsp'
            exact ⟨_, _, by rw [hdispatches, ← hanswered, List.getElem?_concat_length]⟩
      | _ => simp_all
  | called now handler request hprocessing hdispatch =>
      cases hs with
      | processing n hopen _ hreads hwrites hqueue hsent hcount hid hclean =>
          obtain ⟨hdispatches, hanswered, hlast⟩ := processing_counts h htally hprocessing
          refine ⟨hholds, h.hid, ?_⟩
          rw [receivedOf_append, dispatchesOf_append, writesOf_append]
          show Ledger ctx id (receivedOf log ++ []) (dispatchesOf log ++ [.handle handler request])
            (writesOf log ++ [])
          rw [List.append_nil, List.append_nil]
          refine h.ledger.dispatch now (hdispatches ▸ hlast) ?_ (by simp)
          rw [hdispatches, ← hid, ← h.hid, hdispatch]
      | _ => simp_all
  | send k rsp hk =>
      have hunused : k ∉ s.sent := hsingle
      cases hs with
      | awaiting n hopen hstrand hreads hwrites hqueue hsent hcount hid hclean =>
          obtain ⟨-, harrived, -, hanswered, -⟩ := htally
          rw [← length_receivedOf] at harrived
          rw [← length_writesOf] at hanswered
          refine ⟨hholds, h.hid, ?_⟩
          rw [receivedOf_append, dispatchesOf_append, writesOf_append]
          show Ledger ctx id (receivedOf log ++ []) (dispatchesOf log ++ [])
            (writesOf log ++ [(k, rsp, (s.writeResponse ctx rsp).response)])
          rw [List.append_nil, List.append_nil, hwrite rsp hclean, h.holds, if_neg hstrand,
            writeResponseMessage_clearBody]
          exact h.ledger.write k rsp (hanswered ▸ getElem?_of_getLast harrived .fresh)
      | destroyed => simp_all
      | _ => exact absurd (List.Perm.mem_iff ‹_› |>.mpr hk) hunused
  | _ => exact happend rfl rfl rfl

/-- A run of single use keeps its ledger. -/
theorem run_recorded {ctx : Context H} {id : UInt64} :
    ∀ es t, (singleUse ctx).run (init ctx id) es = some t → Recorded ctx id t.1 t.2 := by
  refine singleUse_preserves (P := Recorded ctx id) ⟨rfl, rfl, .nil ctx id⟩ ?_
  intro s log p e s' o ih hs htally halive hsingle hstep
  exact ih.step hs htally halive hsingle hstep

end Session

end HttpServer
