import HttpServerCpp.Core.RequestResponse
import HttpServerCpp.Session.Steps

/-!
# The session follows the serial protocol

As long as each writer is used for at most one `send` (`SingleUse`), a session walks through the
phases of `Core/RequestResponse.lean`.  `Serves s p` is the invariant that ties the members of the
session to the phase: which operations are outstanding, whether the strand is free, whether
`response_` is clean, and which writers have not been used.

`Serves.step` is the simulation step: it says what one session step does to the phase, to the
invariant and to the protocol's observations, all at once.  `run_serves` carries it along a run,
and `singleUse_preserves` is the rule by which later files carry anything else.
-/

namespace HttpServer

variable {H : Type}

/-- What an output is on the stream. -/
def Output.obs : Output H → Option Obs
  | .readStarted _ => some .readStarted
  | .requestRead _ => some .requestRead
  | .readEnded => some .readEnded
  | .dispatched _ => some .dispatched
  | .writeStarted k _ _ => some (.writeStarted k)
  | .writeEnded kept r => some (.writeEnded (r = .ok) kept)
  | .inc _ | .dec _ => none

/-- The observations of a log. -/
def observations (log : List (Output H)) : List Obs := log.filterMap Output.obs

@[simp] lemma observations_append (log log' : List (Output H)) :
    observations (log ++ log') = observations log ++ observations log' := by
  simp [observations]

namespace Session

/-- No copy of a writer is used after one of them was. -/
def SingleUse (s : Session) : Event → Prop
  | .send k _ => k ∉ s.sent
  | _ => True

instance (s : Session) : ∀ e, Decidable (s.SingleUse e)
  | .send k _ => inferInstanceAs (Decidable (k ∉ s.sent))
  | .onRead _ | .processRequest _ | .handleReturns | .countHandled | .writeDone _ _ | .onWrite
  | .destroy => .isTrue trivial

/-- No field and no body octet in `response_`. -/
def CleanResponse (s : Session) : Prop := s.response.clear.clearBody = s.response

/-- The members of a session in a phase of the protocol. -/
inductive Serves (boost : Boost) (s : Session) : Phase → Prop
  | reading (n : Nat) (hopen : s.isOpen = true) (hstrand : s.strand = .idle)
      (hreads : s.reads = 1) (hwrites : s.writes = []) (hqueue : s.onWrites = [])
      (hsent : s.sent.Perm s.writers) (hcount : s.readCount = n)
      (hid : s.currentRequestId = UInt64.ofNat (n + 1)) (hclean : s.CleanResponse) :
      Serves boost s (.reading n)
  | processing (n : Nat) (hopen : s.isOpen = true) (hstrand : s.strand = .processing)
      (hreads : s.reads = 0) (hwrites : s.writes = []) (hqueue : s.onWrites = [])
      (hsent : s.sent.Perm s.writers) (hcount : s.readCount = n + 1)
      (hid : s.currentRequestId = UInt64.ofNat (n + 1)) (hclean : s.CleanResponse) :
      Serves boost s (.processing n)
  | awaiting (n : Nat) (hopen : s.isOpen = true) (hstrand : s.strand ≠ .processing)
      (hreads : s.reads = 0) (hwrites : s.writes = []) (hqueue : s.onWrites = [])
      (hsent : (s.sent ++ [n + 1]).Perm s.writers) (hcount : s.readCount = n + 1)
      (hid : s.currentRequestId = UInt64.ofNat (n + 1)) (hclean : s.CleanResponse) :
      Serves boost s (.awaiting n)
  | writing (n : Nat) (hopen : s.isOpen = true) (hstrand : s.strand ≠ .processing)
      (hreads : s.reads = 0) (hwrites : s.writes = [⟨s.response.keepAlive boost, s.response⟩])
      (hqueue : s.onWrites = [])
      (hsent : s.sent.Perm s.writers) (hcount : s.readCount = n + 1)
      (hid : s.currentRequestId = UInt64.ofNat (n + 1)) :
      Serves boost s (.writing n)
  | written (n : Nat) (hopen : s.isOpen = true) (hstrand : s.strand ≠ .processing)
      (hreads : s.reads = 0) (hwrites : s.writes = []) (hqueue : s.onWrites = [(true, .ok)])
      (hsent : s.sent.Perm s.writers) (hcount : s.readCount = n)
      (hid : s.currentRequestId = UInt64.ofNat n) : Serves boost s (.written n)
  | closing (kept : Bool) (r : WriteResult) (hopen : s.isOpen = true)
      (hstrand : s.strand ≠ .processing)
      (hreads : s.reads = 0) (hwrites : s.writes = []) (hqueue : s.onWrites = [(kept, r)])
      (hfinal : ¬ (kept = true ∧ r = .ok)) (hsent : s.sent.Perm s.writers) :
      Serves boost s .closed
  | closed (hopen : s.isOpen = false) (hstrand : s.strand = .idle)
      (hreads : s.reads = 0) (hwrites : s.writes = []) (hqueue : s.onWrites = [])
      (hsent : s.sent.Perm s.writers) : Serves boost s .closed
  | destroyed (p : Phase) (hphase : ∀ n, p ≠ .processing n) (halive : s.alive = false)
      (hopen : s.isOpen = false) (hstrand : s.strand = .idle) (hreads : s.reads = 0)
      (hwrites : s.writes = []) (hqueue : s.onWrites = []) : Serves boost s p

/-! ## One step -/

section Step

variable {boost : Boost} {ctx : Context H} {s s' : Session} {e : Event} {o : List (Output H)}
  {p : Phase}

/-- A read that brings no request closes the session. -/
lemma Serves.closeAfterRead (hs : Serves boost s p) (hidle : s.strand = .idle)
    (hreads : 0 < s.reads) :
    Phase.protocol.run p [.readEnded] = some .closed ∧
      Serves boost { s with reads := s.reads - 1, isOpen := false } .closed := by
  cases hs with
  | reading n hopen hstrand hone hwrites hqueue hsent =>
      exact ⟨rfl, .closed rfl hidle (by simp [hone]) hwrites hqueue hsent⟩
  | _ => simp_all

/-- While `handle()` runs or has just returned, the phase does not depend on the strand. -/
lemma Serves.setStrand {t : Strand} (hs : Serves boost s p)
    (hbusy : s.strand = .handling ∨ s.strand = .returned) (ht : t ≠ .processing) :
    Serves boost { s with strand := t } p := by
  cases hs with
  | awaiting n hopen _ hreads hwrites hqueue hsent hcount hid hclean =>
      exact .awaiting n hopen ht hreads hwrites hqueue hsent hcount hid hclean
  | writing n hopen _ hreads hwrites hqueue hsent hcount hid =>
      exact .writing n hopen ht hreads hwrites hqueue hsent hcount hid
  | written n hopen _ hreads hwrites hqueue hsent hcount hid =>
      exact .written n hopen ht hreads hwrites hqueue hsent hcount hid
  | closing kept r hopen _ hreads hwrites hqueue hfinal hsent =>
      exact .closing kept r hopen ht hreads hwrites hqueue hfinal hsent
  | _ => simp_all

/-- The `onWrite` of a write that failed or is not kept open closes the session. -/
lemma Serves.closeAfterWrite {kept : Bool} {r : WriteResult} {rest : List (Bool × WriteResult)}
    (hs : Serves boost s p) (hidle : s.strand = .idle) (hqueue : s.onWrites = (kept, r) :: rest)
    (hfinal : ¬ (kept = true ∧ r = .ok)) :
    p = .closed ∧ Serves boost { s with onWrites := rest, isOpen := false } .closed := by
  cases hs with
  | closing kept' r' hopen hstrand hreads hwrites hone hfinal' hsent =>
      obtain ⟨-, rfl⟩ := List.cons.inj (hone.symm.trans hqueue)
      exact ⟨rfl, .closed rfl hidle hreads hwrites rfl hsent⟩
  | _ => simp_all

/-- **The simulation step.**  The cases are the outcomes of a step; in each the members of the
session leave one phase it can have been taken in. -/
theorem Serves.step (hs : Serves ctx.boost s p) (halive : s.alive = true) (hsingle : s.SingleUse e)
    (hstep : Step ctx s e s' o) :
    ∃ p', Phase.protocol.run p (observations o) = some p' ∧ Serves ctx.boost s' p' := by
  cases hstep with
  | readEndOfStream hidle hreads => exact ⟨_, hs.closeAfterRead hidle hreads⟩
  | readTimeout hidle hreads => exact ⟨_, hs.closeAfterRead hidle hreads⟩
  | readError hidle hreads => exact ⟨_, hs.closeAfterRead hidle hreads⟩
  | requestRead received hidle hreads =>
      cases hs with
      | reading n hopen _ hone hwrites hqueue hsent hcount hid hclean =>
          refine ⟨.processing n, rfl,
            .processing n hopen rfl ?_ hwrites hqueue hsent ?_ hid hclean⟩
          · simp [hone]
          · simp [hcount]
      | _ => simp_all
  | rejected now rsp hprocessing hdispatch =>
      cases hs with
      | processing n hopen _ hreads hwrites hqueue hsent hcount hid _ =>
          refine ⟨.writing n, ?_,
            .writing n hopen (by simp) hreads ?_ hqueue hsent hcount hid⟩
          · show Phase.protocol.run (.processing n) [.dispatched, .writeStarted s.readCount] = _
            simp [Phase.protocol, Phase.next, hcount]
          · simp [writeResponse, doWrite, hwrites]
      | _ => simp_all
  | called now handler request hprocessing hdispatch =>
      cases hs with
      | processing n hopen _ hreads hwrites hqueue hsent hcount hid hclean =>
          refine ⟨.awaiting n, rfl,
            .awaiting n hopen (by simp) hreads hwrites hqueue ?_ hcount hid hclean⟩
          simpa only [hcount] using hsent.append_right [n + 1]
      | _ => simp_all
  | handleReturns hhandling => exact ⟨p, rfl, hs.setStrand (.inl hhandling) (by simp)⟩
  | countHandled hreturned => exact ⟨p, rfl, hs.setStrand (.inr hreturned) (by simp)⟩
  | send k rsp hk =>
      have hunused : k ∉ s.sent := hsingle
      cases hs with
      | awaiting n hopen hstrand hreads hwrites hqueue hsent hcount hid _ =>
          have hk' : k = n + 1 := by simpa [hunused] using hsent.mem_iff.mpr hk
          refine ⟨.writing n, ?_,
            .writing n hopen hstrand hreads ?_ hqueue ?_ hcount hid⟩
          · simp [observations, Output.obs, Phase.protocol, Phase.next, hk']
          · simp [writeResponse, doWrite, hwrites]
          · rw [hk']
            exact hsent
      | destroyed => simp_all
      | _ => exact absurd (List.Perm.mem_iff ‹_› |>.mpr hk) hunused
  | writeDone i r w hw =>
      cases hs with
      | writing n hopen hstrand hreads hwrites hqueue hsent hcount hid =>
          obtain ⟨rfl, rfl⟩ : i = 0 ∧ w = ⟨s.response.keepAlive ctx.boost, s.response⟩ := by
            rw [hwrites] at hw
            cases i with
            | zero => exact ⟨rfl, (Option.some.inj hw).symm⟩
            | succ i => simp at hw
          by_cases hfinal : s.response.keepAlive ctx.boost = true ∧ r = .ok
          · obtain ⟨hkeep, rfl⟩ := hfinal
            refine ⟨.written (n + 1), ?_,
              .written (n + 1) hopen hstrand hreads ?_ ?_ hsent hcount hid⟩
            · simp [observations, Output.obs, Phase.protocol, Phase.next, hkeep]
            · simp [hwrites]
            · simp [hqueue, hkeep]
          · refine ⟨.closed, ?_, .closing _ r hopen hstrand hreads ?_ ?_ hfinal hsent⟩
            · have hnot : ¬ (r = .ok ∧ s.response.keepAlive ctx.boost = true) :=
                fun h => hfinal ⟨h.2, h.1⟩
              simp [observations, Output.obs, Phase.protocol, Phase.next, hnot]
            · simp [hwrites]
            · simp [hqueue]
      | _ => simp_all
  | writeTimeout kept rest hidle hqueue =>
      obtain ⟨rfl, hs'⟩ := hs.closeAfterWrite hidle hqueue (by simp)
      exact ⟨.closed, rfl, hs'⟩
  | writeError kept rest hidle hqueue =>
      obtain ⟨rfl, hs'⟩ := hs.closeAfterWrite hidle hqueue (by simp)
      exact ⟨.closed, rfl, hs'⟩
  | writeClosed rest hidle hqueue =>
      obtain ⟨rfl, hs'⟩ := hs.closeAfterWrite hidle hqueue (by simp)
      exact ⟨.closed, rfl, hs'⟩
  | writeKept rest hidle hqueue =>
      cases hs with
      | written n hopen _ hreads hwrites hone hsent hcount hid =>
          obtain ⟨-, rfl⟩ := List.cons.inj (hone.symm.trans hqueue)
          refine ⟨.reading n, rfl, .reading n hopen hidle ?_ hwrites rfl hsent hcount ?_ rfl⟩
          · simp [doRead, hreads]
          · simp [doRead, hid]
      | _ => simp_all
  | destroyed hunowned =>
      obtain ⟨hidle, hreads, hwrites, hqueue⟩ := hunowned
      have hphase : ∀ n, p ≠ .processing n := by
        rintro n rfl
        cases hs with
        | processing _ _ hstrand => simp [hidle] at hstrand
        | destroyed _ hphase => exact hphase n rfl
      exact ⟨p, rfl, .destroyed p hphase rfl rfl hidle hreads (List.length_eq_zero_iff.mp hwrites)
        (List.length_eq_zero_iff.mp hqueue)⟩

end Step

/-! ## Runs -/

/-- The session that was just started reads its first request. -/
lemma serves_init (ctx : Context H) (id : UInt64) :
    Serves ctx.boost (init ctx id).1 (.reading 0) :=
  .reading 0 rfl rfl rfl rfl rfl (.refl _) rfl rfl rfl

/-- The session all copies of whose writers together are used at most once. -/
def singleUse (ctx : Context H) : LTS (Session × List (Output H)) Event :=
  (lts ctx).restrict fun t e => t.1.SingleUse e

/-- **Every run of single use follows the protocol**, and ends in a session that serves the phase
the protocol ends in. -/
theorem run_serves {ctx : Context H} {id : UInt64} :
    ∀ es t, (singleUse ctx).run (init ctx id) es = some t →
      ∃ p, Phase.protocol.run (.written 0) (observations t.2) = some p ∧
        Serves ctx.boost t.1 p := by
  refine LTS.run_induction (P := fun _ (t : Session × List (Output H)) => ∃ p,
    Phase.protocol.run (.written 0) (observations t.2) = some p ∧ Serves ctx.boost t.1 p) ?_ ?_
  · exact ⟨.reading 0, rfl, serves_init ctx id⟩
  · intro es t e t' _ ih hstep
    obtain ⟨p, hp, hs⟩ := ih
    obtain ⟨hsingle, hstep⟩ := LTS.restrict_step.mp hstep
    obtain ⟨o, halive, hcases, hlog⟩ := lts_step hstep
    obtain ⟨p', hp', hs'⟩ := hs.step halive hsingle hcases
    refine ⟨p', ?_, hs'⟩
    rw [hlog, observations_append, LTS.run_append, hp]
    exact hp'

/-- The rule for sessions of single use: each step is taken in a phase that the session serves
and that the counts of its log belong to. -/
theorem singleUse_preserves {ctx : Context H} {id : UInt64}
    {P : Session → List (Output H) → Prop} (hinit : P (start ctx id) [.readStarted 1])
    (hpreserve : ∀ s log p e s' o, P s log → Serves ctx.boost s p →
      Phase.tally (observations log) p → s.alive = true → s.SingleUse e → Step ctx s e s' o →
      P s' (log ++ o)) :
    ∀ es t, (singleUse ctx).run (init ctx id) es = some t → P t.1 t.2 := by
  refine LTS.run_induction (P := fun _ (t : Session × List (Output H)) => P t.1 t.2) hinit ?_
  intro es t e t' hrun ih hstep
  obtain ⟨p, hp, hs⟩ := run_serves es t hrun
  obtain ⟨hsingle, hstep⟩ := LTS.restrict_step.mp hstep
  obtain ⟨o, halive, hcases, hlog⟩ := lts_step hstep
  rw [hlog]
  exact hpreserve t.1 t.2 p e t'.1 o ih hs (Phase.run_tally _ _ hp) halive hsingle hcases

end Session

end HttpServer
